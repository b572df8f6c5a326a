import MCGate.Std.AddrRoundTrip
import MCGate.Std.Utf8
import MCGate.Protocol.ProxyProtocolDatagram
import MCGate.Protocol.MinecraftProtocol

/-!
# The PROXY header of a dial, read back

The header that stands in front of a dialled connection is a v1 line of six fields. No field
has a space or a line end in it, and all of them are ASCII, so the line ends where the header
does and its fields are those that were written. The longest one, of two IPv6 addresses of 39
characters and two ports of five, has 104 bytes.
-/
namespace MCGate.ProxyProtocol

/-- The fields that `encode_proxy_protocol_header` formats. -/
def headerFields (sourceAddr destAddr : SocketAddr) : List Text :=
  ["PROXY".toList, if sourceAddr.ip.isIpv6 then "TCP6".toList else "TCP4".toList,
    displayIp sourceAddr.ip, displayIp destAddr.ip, Nat.toDigits 10 sourceAddr.port.toNat,
    Nat.toDigits 10 destAddr.port.toNat]

def headerLine (sourceAddr destAddr : SocketAddr) : Text :=
  List.intercalate [' '] (headerFields sourceAddr destAddr)

theorem encodeProxyProtocolHeader_eq (sourceAddr destAddr : SocketAddr) :
    encodeProxyProtocolHeader sourceAddr destAddr =
      asBytes (headerLine sourceAddr destAddr) ++ [0x0D, 0x0A] := by
  have crlf : asBytes "\r\n".toList = [0x0D, 0x0A] := by decide
  have front : "PROXY ".toList = "PROXY".toList ++ [' '] := by decide
  rw [encodeProxyProtocolHeader, ← crlf, ← asBytes_append, headerLine, headerFields, front]
  simp only [List.intercalate_cons_cons, List.intercalate_singleton, List.append_assoc,
    List.cons_append, List.nil_append, apply_ite String.toList]

/-! ### The characters of a header -/

/-- Neither ends a field nor a line, and takes one byte. -/
def Plain (c : Char) : Prop := c.toNat < 128 ∧ c ≠ ' ' ∧ c ≠ '\r'

private theorem plain_digitChar {d : Nat} (small : d < 16) : Plain (Nat.digitChar d) := by
  have table : ∀ n : Fin 16, (Nat.digitChar n).toNat < 128 ∧ Nat.digitChar n ≠ ' ' ∧
      Nat.digitChar n ≠ '\r' := by decide
  exact table ⟨d, small⟩

private theorem plain_of_mem_decimal {c : Char} {n : Nat} (member : c ∈ Nat.toDigits 10 n) :
    Plain c := by
  by_contra odd
  refine notMem_decimal (c := c) ?_ n member
  rintro d small rfl
  exact odd (plain_digitChar small)

theorem plain_of_mem_displayIp {c : Char} {ip : IpAddr} (member : c ∈ displayIp ip) : Plain c := by
  have point : Plain '.' := by unfold Plain; decide
  have colon : Plain ':' := by unfold Plain; decide
  by_contra odd
  apply notMem_displayIp _ _ _ ip member
  · rintro d small rfl
    exact odd (plain_digitChar small)
  · rintro rfl
    exact odd point
  · rintro rfl
    exact odd colon

private theorem plain_of_mem_headerFields {sourceAddr destAddr : SocketAddr} {field : Text}
    {c : Char} (one : field ∈ headerFields sourceAddr destAddr) (member : c ∈ field) : Plain c := by
  have word {text : Text} (plain : text.all fun c => c.toNat < 128 && c != ' ' && c != '\r')
      (member : c ∈ text) : Plain c := by
    have here := List.all_eq_true.mp plain c member
    simpa [Plain, and_assoc] using here
  simp only [headerFields, List.mem_cons, List.not_mem_nil, or_false] at one
  rcases one with rfl | rfl | rfl | rfl | rfl | rfl
  · exact word (by decide) member
  · split at member
    · exact word (by decide) member
    · exact word (by decide) member
  · exact plain_of_mem_displayIp member
  · exact plain_of_mem_displayIp member
  · exact plain_of_mem_decimal member
  · exact plain_of_mem_decimal member

private theorem mem_headerLine {sourceAddr destAddr : SocketAddr} {c : Char}
    (member : c ∈ headerLine sourceAddr destAddr) : c.toNat < 128 ∧ c ≠ '\r' := by
  -- a space between two fields, or a character of one of them
  by_cases space : c = ' '
  · subst space
    decide
  · by_contra odd
    apply notMem_intercalate space _ member
    intro field one here
    obtain ⟨ascii, -, inside⟩ := plain_of_mem_headerFields one here
    exact odd ⟨ascii, inside⟩

theorem asBytes_headerLine (sourceAddr destAddr : SocketAddr) :
    asBytes (headerLine sourceAddr destAddr) =
      (headerLine sourceAddr destAddr).map fun c => UInt8.ofNat c.toNat :=
  asBytes_ascii fun _ member => (mem_headerLine member).1

/-- No byte of the line is a carriage return. -/
theorem notMem_asBytes_headerLine (sourceAddr destAddr : SocketAddr) :
    0x0D ∉ asBytes (headerLine sourceAddr destAddr) := by
  rw [asBytes_headerLine, List.mem_map]
  rintro ⟨c, member, byte⟩
  obtain ⟨ascii, inside⟩ := mem_headerLine member
  have value := congrArg UInt8.toNat byte
  have small : (UInt8.ofNat c.toNat).toNat = c.toNat := Nat.mod_eq_of_lt (by omega)
  rw [small] at value
  exact inside (by rw [← Char.ofNat_toNat c, value]; rfl)

/-! ### The round trip -/

theorem firstCrlf_header (sourceAddr destAddr : SocketAddr) (rest : Bytes) :
    FirstCrlf (encodeProxyProtocolHeader sourceAddr destAddr ++ rest)
      (asBytes (headerLine sourceAddr destAddr)).length := by
  rw [encodeProxyProtocolHeader_eq, List.append_assoc]
  constructor
  · constructor
    · rw [List.getElem?_append_right (Nat.le_refl _), Nat.sub_self]
      rfl
    · rw [List.getElem?_append_right (Nat.le_add_right _ 1), Nat.add_sub_cancel_left]
      rfl
  · rintro j before ⟨cr, -⟩
    rw [List.getElem?_append_left before] at cr
    exact notMem_asBytes_headerLine sourceAddr destAddr (List.mem_of_getElem? cr)

theorem splitOn_headerLine (sourceAddr destAddr : SocketAddr) :
    (headerLine sourceAddr destAddr).splitOn ' ' = headerFields sourceAddr destAddr := by
  have spaces : ∀ field ∈ headerFields sourceAddr destAddr, ' ' ∉ field := by
    intro field one space
    exact (plain_of_mem_headerFields one space).2.1 rfl
  exact List.splitOn_intercalate ' ' spaces (List.cons_ne_nil _ _)

private theorem parseLine_headerLine (sourceAddr destAddr : SocketAddr) :
    parseLine (headerLine sourceAddr destAddr) = .ok (some sourceAddr) := by
  have known : (headerFields sourceAddr destAddr)[1]? ≠ some "UNKNOWN".toList := by
    simp only [headerFields, List.getElem?_cons_succ, List.getElem?_cons_zero]
    split
    · decide
    · decide
  rw [parseLine, splitOn_headerLine]
  simp only [known, if_false]
  simp only [headerFields, parseIpAddr_displayIp, parseU16_toDigits]

private theorem length_headerLine (sourceAddr destAddr : SocketAddr) :
    (headerLine sourceAddr destAddr).length ≤ 102 := by
  have port (n : UInt16) : (Nat.toDigits 10 n.toNat).length ≤ 5 :=
    (Nat.length_toDigits_le_iff (by decide) (by decide)).mpr
      (Nat.lt_trans n.toNat_lt (by decide))
  have proto : (if sourceAddr.ip.isIpv6 then "TCP6".toList else "TCP4".toList).length = 4 := by
    split
    · rfl
    · rfl
  have word : "PROXY".toList.length = 5 := rfl
  have source := length_displayIp sourceAddr.ip
  have dest := length_displayIp destAddr.ip
  have sourcePort := port sourceAddr.port
  have destPort := port destAddr.port
  simp only [headerLine, headerFields, List.intercalate_cons_cons, List.intercalate_singleton,
    List.length_append, List.length_singleton, proto, word]
  omega

/-- Whatever follows, the header gives the source address back and takes its own length, within
what one line may have. -/
theorem proxyHeader_roundTrip (sourceAddr destAddr : SocketAddr) (rest : Bytes) :
    parseProxyProtocolHeader (encodeProxyProtocolHeader sourceAddr destAddr ++ rest) =
        .ok (some sourceAddr, (encodeProxyProtocolHeader sourceAddr destAddr).length) ∧
      (encodeProxyProtocolHeader sourceAddr destAddr).length ≤ 107 := by
  have short := length_headerLine sourceAddr destAddr
  have bytes : (asBytes (headerLine sourceAddr destAddr)).length =
      (headerLine sourceAddr destAddr).length := by
    rw [asBytes_headerLine, List.length_map]
  have size : (encodeProxyProtocolHeader sourceAddr destAddr).length =
      (asBytes (headerLine sourceAddr destAddr)).length + 2 := by
    rw [encodeProxyProtocolHeader_eq, List.length_append]
    rfl
  have v1 : V1_PREFIX <+: encodeProxyProtocolHeader sourceAddr destAddr ++ rest := by
    rw [encodeProxyProtocolHeader, List.append_assoc, List.append_assoc, List.append_assoc,
      List.append_assoc, List.append_assoc, asBytes_append, List.append_assoc]
    exact List.prefix_append _ _
  have line : (encodeProxyProtocolHeader sourceAddr destAddr ++ rest).take
      (asBytes (headerLine sourceAddr destAddr)).length =
        asBytes (headerLine sourceAddr destAddr) := by
    rw [encodeProxyProtocolHeader_eq, List.append_assoc, List.take_append_length]
  constructor
  · rw [parse_v1 v1, size]
    apply parseV1_of_crlf (by omega) (firstCrlf_header sourceAddr destAddr rest)
    rw [line, fromUtf8Lossy_asBytes, parseLine_headerLine]
  · omega

end MCGate.ProxyProtocol
