import MCGate.Lib.Reader
import MCGate.Std.Net

/-!
# PROXY protocol headers in one buffer

`parse_proxy_protocol_header` reads a v1 (text) or v2 (binary) header from the
front of a buffer that holds all of it. What it finds depends on the bytes it
counts as the header alone (`parse_local`), and the only headers it accepts that
are shorter than 16 bytes are the two of `ShortHeader` (`shortHeader_of_parse`,
`parse_shortHeader`).
-/
namespace MCGate

/-- `ProxyProtocolFormatError` -/
structure ProxyProtocolFormatError where
  message : String
  deriving DecidableEq, Repr

namespace ProxyProtocol

def V2_SIGNATURE : Bytes :=
  [0x0D, 0x0A, 0x0D, 0x0A, 0x00, 0x0D, 0x0A, 0x51, 0x55, 0x49, 0x54, 0x0A]

def V1_PREFIX : Bytes := literal "PROXY "

def err {α : Type} (msg : String) : Except ProxyProtocolFormatError α := .error ⟨msg⟩

def startsWith (buf pre : Bytes) : Bool := pre.length ≤ buf.length ∧ buf.take pre.length = pre

-- Indices below are in range: `parse_v2` is entered with at least 16 bytes, and the
-- address block is only read after its length was checked.
def parseV2 (buf : Bytes) : Except ProxyProtocolFormatError (Option SocketAddr × Nat) :=
  let verCmd := buf.getD 12 0
  if verCmd >>> 4 ≠ 0x2 then err "PROXY v2 version nibble != 2"
  else
    let command := verCmd &&& 0x0F
    let family := buf.getD 13 0 >>> 4
    let addrLen := (fromBeBytes (buf.getD 14 0) (buf.getD 15 0)).toNat
    let headerLen := 16 + addrLen
    if buf.length < headerLen then err s!"PROXY v2 header truncated (need {headerLen} bytes)"
    -- LOCAL or UNSPEC: nothing to route by
    else if command = 0 ∨ family = 0 then .ok (none, headerLen)
    else if family = 1 ∧ 12 ≤ addrLen then
      let addr : Ipv4Addr := ⟨buf.getD 16 0, buf.getD 17 0, buf.getD 18 0, buf.getD 19 0⟩
      let port := fromBeBytes (buf.getD 24 0) (buf.getD 25 0)
      .ok (some ⟨.v4 addr, port⟩, headerLen)
    else if family = 2 ∧ 36 ≤ addrLen then
      let addr := Ipv6Addr.ofOctets ((buf.take 32).drop 16)
      let port := fromBeBytes (buf.getD 48 0) (buf.getD 49 0)
      .ok (some ⟨.v6 addr, port⟩, headerLen)
    else err s!"PROXY v2 address block too short for family {family}"

/-- The first CR that an LF follows. -/
def findCrlf : Bytes → Option Nat
  | a :: b :: rest =>
    if a = 0x0D ∧ b = 0x0A then some 0 else (findCrlf (b :: rest)).map (· + 1)
  | _ => none

/-- The fields of a v1 line, as `parse_v1` reads them. -/
def parseLine (line : Text) : Except ProxyProtocolFormatError (Option SocketAddr) :=
  let parts := line.splitOn ' '
  let shown := String.ofList line
  if parts[1]? = some "UNKNOWN".toList then .ok none
  else match parts with
    | _ :: _ :: ip :: _ :: port :: _ :: _ =>
      match parseIpAddr ip, parseU16 port with
      | some ip, some port => .ok (some ⟨ip, port⟩)
      | _, _ => err s!"PROXY v1 header has an unparseable source address: '{shown}'"
    | _ => err s!"PROXY v1 header has too few fields: '{shown}'"

def parseV1 (buf : Bytes) : Except ProxyProtocolFormatError (Option SocketAddr × Nat) :=
  match findCrlf (buf.take 108) with
  | none => err "PROXY v1 header has no CRLF within 107 bytes"
  | some crlf =>
    match parseLine (fromUtf8Lossy (buf.take crlf)) with
    | .error e => .error e
    | .ok addr => .ok (addr, crlf + 2)

def parseProxyProtocolHeader (buf : Bytes) :
    Except ProxyProtocolFormatError (Option SocketAddr × Nat) :=
  if 16 ≤ buf.length ∧ startsWith buf V2_SIGNATURE then parseV2 buf
  else if startsWith buf V1_PREFIX then parseV1 buf
  else err "no PROXY protocol v1 or v2 signature"

example : parseProxyProtocolHeader (literal "PROXY TCP4 1.2.3.4 5.6.7.8 111 222\r\nrest") =
    .ok (some ⟨.v4 ⟨1, 2, 3, 4⟩, 111⟩, 36) := by decide

/-! ### Where the line ends -/

def CrlfAt (b : Bytes) (i : Nat) : Prop := b[i]? = some 0x0D ∧ b[i + 1]? = some 0x0A

/-- The line of `b` ends at `i`. -/
def FirstCrlf (b : Bytes) (i : Nat) : Prop := CrlfAt b i ∧ ∀ j < i, ¬ CrlfAt b j

theorem CrlfAt.length {b : Bytes} {i : Nat} (h : CrlfAt b i) : i + 2 ≤ b.length := by
  have := (List.getElem?_eq_some_iff.mp h.2).1
  omega

private theorem crlfAt_take {b : Bytes} {n i : Nat} :
    CrlfAt (b.take n) i ↔ CrlfAt b i ∧ i + 2 ≤ n := by
  constructor
  · intro h
    have inside := h.length
    rw [List.length_take] at inside
    simp only [CrlfAt, List.getElem?_take] at h
    rw [if_pos (by omega), if_pos (by omega)] at h
    exact ⟨h, by omega⟩
  · rintro ⟨h, inside⟩
    simp only [CrlfAt, List.getElem?_take]
    rwa [if_pos (by omega), if_pos (by omega)]

private theorem crlfAt_cons {a : UInt8} {b : Bytes} {i : Nat} :
    CrlfAt (a :: b) (i + 1) ↔ CrlfAt b i := by
  simp [CrlfAt]

theorem findCrlf_eq_some_iff {b : Bytes} {i : Nat} : findCrlf b = some i ↔ FirstCrlf b i := by
  fun_induction findCrlf b generalizing i with
  | case1 a c rest here =>
    obtain ⟨rfl, rfl⟩ := here
    have zero : CrlfAt (0x0D :: 0x0A :: rest) 0 := ⟨rfl, rfl⟩
    constructor
    · intro h
      cases h
      exact ⟨zero, fun j below => absurd below (by omega)⟩
    · rintro ⟨-, first⟩
      cases i with
      | zero => rfl
      | succ i => exact absurd zero (first 0 (by omega))
  | case2 a c rest notHere ih =>
    have zero : ¬ CrlfAt (a :: c :: rest) 0 := by simpa [CrlfAt] using notHere
    cases i with
    | zero => simp [FirstCrlf, zero]
    | succ i =>
      rw [Option.map_eq_some_iff]
      constructor
      · rintro ⟨k, found, same⟩
        obtain rfl : k = i := by omega
        obtain ⟨crlf, first⟩ := ih.mp found
        -- an earlier one would stand at the head, or be an earlier one of the rest
        refine ⟨crlfAt_cons.mpr crlf, fun j below => ?_⟩
        cases j with
        | zero => exact zero
        | succ j => exact fun h => first j (by omega) (crlfAt_cons.mp h)
      · rintro ⟨crlf, first⟩
        refine ⟨i, ih.mpr ⟨crlfAt_cons.mp crlf, fun j below h => ?_⟩, rfl⟩
        exact first (j + 1) (by omega) (crlfAt_cons.mpr h)
  | case3 b short =>
    constructor
    · intro h
      cases h
    · intro h
      have := h.1.length
      rcases b with _ | ⟨a, _ | ⟨c, rest⟩⟩
      · simp at this
      · simp at this
      · exact absurd rfl (short a c rest)

theorem firstCrlf_take {b : Bytes} {n i : Nat} :
    FirstCrlf (b.take n) i ↔ FirstCrlf b i ∧ i + 2 ≤ n := by
  simp only [FirstCrlf, crlfAt_take]
  constructor
  · rintro ⟨⟨here, inside⟩, first⟩
    exact ⟨⟨here, fun j below h => first j below ⟨h, by omega⟩⟩, inside⟩
  · rintro ⟨⟨here, first⟩, inside⟩
    exact ⟨⟨here, inside⟩, fun j below h => first j below h.1⟩

/-! ### The header alone decides -/

theorem startsWith_iff {buf pre : Bytes} : startsWith buf pre ↔ pre <+: buf := by
  simp only [startsWith, decide_eq_true_eq, List.prefix_iff_eq_take]
  constructor
  · rintro ⟨-, same⟩
    exact same.symm
  · intro same
    refine ⟨?_, same.symm⟩
    have := congrArg List.length same
    rw [List.length_take] at this
    omega

theorem getD_take {b : Bytes} {m i : Nat} (inside : i < m) : (b.take m).getD i 0 = b.getD i 0 := by
  rw [List.getD_eq_getElem?_getD, List.getD_eq_getElem?_getD, List.getElem?_take_of_lt inside]

private theorem getD_front {b : Bytes} {n : Nat} (within : n ≤ b.length) (r : Bytes) (i : Nat)
    (inside : i < n) : (b.take n ++ r).getD i 0 = b.getD i 0 := by
  have : i < (b.take n).length := by rw [List.length_take]; omega
  rw [List.getD_eq_getElem?_getD, List.getElem?_append_left this, ← List.getD_eq_getElem?_getD,
    getD_take inside]

theorem parseV2_consumed {b : Bytes} {addr : Option SocketAddr} {n : Nat}
    (read : parseV2 b = .ok (addr, n)) :
    n = 16 + (fromBeBytes (b.getD 14 0) (b.getD 15 0)).toNat ∧ n ≤ b.length := by
  simp only [parseV2, err] at read
  split_ifs at read <;> cases read <;> omega

private theorem parseV2_stable {b : Bytes} {addr : Option SocketAddr} {n : Nat}
    (read : parseV2 b = .ok (addr, n)) (r : Bytes) :
    parseV2 (b.take n ++ r) = .ok (addr, n) := by
  obtain ⟨size, within⟩ := parseV2_consumed read
  have same := getD_front within r
  have long : ¬ (b.take n ++ r).length < 16 + (fromBeBytes (b.getD 14 0) (b.getD 15 0)).toNat := by
    rw [List.length_append, List.length_take]
    omega
  have enough : ¬ b.length < 16 + (fromBeBytes (b.getD 14 0) (b.getD 15 0)).toNat := by omega
  -- every byte that is looked at lies inside the header
  simp only [parseV2, err] at read ⊢
  rw [same 12 (by omega), same 13 (by omega), same 14 (by omega), same 15 (by omega)]
  rw [if_neg long]
  rw [if_neg enough] at read
  split_ifs at read with version unspec inet inet6
  · rw [if_neg version, if_pos unspec]
    exact read
  · rw [if_neg version, if_neg unspec, if_pos inet, same 16 (by omega), same 17 (by omega),
      same 18 (by omega), same 19 (by omega), same 24 (by omega), same 25 (by omega)]
    exact read
  · have octets : (b.take n ++ r).take 32 = b.take 32 := by
      rw [List.take_append_of_le_length (by rw [List.length_take]; omega), List.take_take,
        Nat.min_eq_left (by omega)]
    rw [if_neg version, if_neg unspec, if_neg inet, if_pos inet6, octets, same 48 (by omega),
      same 49 (by omega)]
    exact read

theorem parseV1_crlf {b : Bytes} {addr : Option SocketAddr} {n : Nat}
    (read : parseV1 b = .ok (addr, n)) :
    ∃ c, n = c + 2 ∧ n ≤ 108 ∧ FirstCrlf b c ∧
      parseLine (fromUtf8Lossy (b.take c)) = .ok addr := by
  simp only [parseV1] at read
  split at read
  · cases read
  next c found =>
    split at read
    · cases read
    next addr' line =>
      cases read
      obtain ⟨first, inside⟩ := firstCrlf_take.mp (findCrlf_eq_some_iff.mp found)
      exact ⟨c, rfl, inside, first, line⟩

theorem parseV1_of_crlf {b : Bytes} {addr : Option SocketAddr} {c : Nat} (inside : c + 2 ≤ 108)
    (first : FirstCrlf b c) (line : parseLine (fromUtf8Lossy (b.take c)) = .ok addr) :
    parseV1 b = .ok (addr, c + 2) := by
  have found := findCrlf_eq_some_iff.mpr (firstCrlf_take.mpr ⟨first, inside⟩)
  simp only [parseV1, found, line]

theorem FirstCrlf.front {b : Bytes} {c : Nat} (first : FirstCrlf b c) (r : Bytes) :
    FirstCrlf (b.take (c + 2) ++ r) c := by
  have front : FirstCrlf (b.take (c + 2)) c := firstCrlf_take.mpr ⟨first, Nat.le_refl _⟩
  have whole : (b.take (c + 2) ++ r).take (c + 2) = b.take (c + 2) := by
    rw [List.take_append_of_le_length, List.take_take, Nat.min_self]
    rw [List.length_take]
    have := first.1.length
    omega
  rw [← whole] at front
  exact (firstCrlf_take.mp front).1

/-- The line holds at least the prefix. -/
theorem firstCrlf_v1 {b : Bytes} {c : Nat} (v1 : V1_PREFIX <+: b) (here : CrlfAt b c) : 6 ≤ c := by
  obtain ⟨rest, rfl⟩ := v1
  by_contra small
  have front := here.1
  rw [List.getElem?_append_left (show c < V1_PREFIX.length from Nat.lt_of_not_le small)] at front
  exact absurd (List.mem_of_getElem? front) (by decide)

theorem not_v2 {b : Bytes} (v1 : V1_PREFIX <+: b) : ¬ V2_SIGNATURE <+: b := by
  obtain ⟨rest, rfl⟩ := v1
  rintro ⟨rest', same⟩
  exact absurd (List.cons.inj same).1 (by decide)

theorem parse_v1 {b : Bytes} (v1 : V1_PREFIX <+: b) : parseProxyProtocolHeader b = parseV1 b := by
  simp [parseProxyProtocolHeader, startsWith_iff, v1, not_v2 v1]

theorem parse_v2 {b : Bytes} (v2 : V2_SIGNATURE <+: b) (long : 16 ≤ b.length) :
    parseProxyProtocolHeader b = parseV2 b := by
  simp [parseProxyProtocolHeader, startsWith_iff, v2, long]

/-- An accepted buffer starts with one of the two signatures. -/
theorem parse_ok {b : Bytes} {addr : Option SocketAddr} {n : Nat}
    (read : parseProxyProtocolHeader b = .ok (addr, n)) :
    (V2_SIGNATURE <+: b ∧ 16 ≤ b.length ∧ parseV2 b = .ok (addr, n)) ∨
      (V1_PREFIX <+: b ∧ parseV1 b = .ok (addr, n)) := by
  simp only [parseProxyProtocolHeader, startsWith_iff, err] at read
  split_ifs at read with v2 v1
  · exact Or.inl ⟨v2.2, v2.1, read⟩
  · exact Or.inr ⟨v1, read⟩

private theorem prefix_front {pre b : Bytes} {n : Nat} (starts : pre <+: b)
    (inside : pre.length ≤ n) (r : Bytes) : pre <+: b.take n ++ r :=
  (List.prefix_take_iff.mpr ⟨starts, inside⟩).trans (List.prefix_append _ _)

/-- What is accepted, and where it ends, is decided by the bytes counted as the header. -/
theorem parse_local : Reader.Local parseProxyProtocolHeader where
  within := by
    intro b addr n read
    rcases parse_ok read with ⟨-, -, v2⟩ | ⟨-, v1⟩
    · exact (parseV2_consumed v2).2
    · obtain ⟨c, rfl, -, first, -⟩ := parseV1_crlf v1
      exact first.1.length
  stable := by
    intro b addr n read r
    rcases parse_ok read with ⟨sig, long, v2⟩ | ⟨pre, v1⟩
    · obtain ⟨size, within⟩ := parseV2_consumed v2
      have sixteen : 16 ≤ (b.take n ++ r).length := by
        rw [List.length_append, List.length_take]
        omega
      have twelve : V2_SIGNATURE.length ≤ n := by
        have : V2_SIGNATURE.length = 12 := rfl
        omega
      rw [parse_v2 (prefix_front sig twelve r) sixteen]
      exact parseV2_stable v2 r
    · obtain ⟨c, rfl, inside, first, line⟩ := parseV1_crlf v1
      have six : V1_PREFIX.length ≤ c + 2 := by
        have : V1_PREFIX.length = 6 := rfl
        have := firstCrlf_v1 pre first.1
        omega
      have front : (b.take (c + 2) ++ r).take c = b.take c := by
        have := first.1.length
        rw [List.take_append_of_le_length (by rw [List.length_take]; omega), List.take_take,
          Nat.min_eq_left (by omega)]
      rw [parse_v1 (prefix_front pre six r)]
      exact parseV1_of_crlf inside (first.front r) (by rw [front, line])

/-! ### The accepted headers under 16 bytes -/

/-- `PROXY UNKNOWN`, and a line of empty fields around the address `::` and a port of
one digit. -/
def ShortHeader (b : Bytes) : Prop :=
  literal "PROXY UNKNOWN\r\n" <+: b ∨
    ∃ d ∈ literal "0123456789", literal "PROXY  ::  " ++ d :: literal " \r\n" <+: b

private theorem fromUtf8Lossy_v1 (r : Bytes) :
    fromUtf8Lossy (V1_PREFIX ++ r) = "PROXY".toList ++ ' ' :: fromUtf8Lossy r := rfl

/-- A line of 13 bytes that decodes to 13 characters is the text it decodes to. -/
theorem header_of_text {b : Bytes} {c : Nat} {text : Text} (here : CrlfAt b c) (short : c ≤ 13)
    (decoded : fromUtf8Lossy (b.take c) = text) (full : text.length = 13)
    (valid : Utf8.replacement ∉ text) :
    text.map (fun ch => UInt8.ofNat ch.toNat) ++ [0x0D, 0x0A] <+: b := by
  have inside := here.length
  have size : (b.take c).length = c := by rw [List.length_take]; omega
  have enough := fromUtf8Lossy_length_le (b.take c)
  rw [decoded, full, size] at enough
  subst decoded
  rw [fromUtf8Lossy_ascii (by omega) valid]
  obtain ⟨cr, lf⟩ := here
  refine ⟨b.drop (c + 2), ?_⟩
  have tail : b.drop c = 0x0D :: 0x0A :: b.drop (c + 2) := by
    obtain ⟨h1, e1⟩ := List.getElem?_eq_some_iff.mp cr
    obtain ⟨h2, e2⟩ := List.getElem?_eq_some_iff.mp lf
    rw [List.drop_eq_getElem_cons h1, List.drop_eq_getElem_cons h2, e1, e2]
  rw [List.append_assoc, List.cons_append, List.singleton_append, ← tail, List.take_append_drop]

private theorem parseLine_short {text rest : Text} {addr : Option SocketAddr}
    (starts : text = "PROXY".toList ++ ' ' :: rest) (short : text.length ≤ 13)
    (parsed : parseLine text = .ok addr) :
    text = "PROXY UNKNOWN".toList ∨
      ∃ d ∈ "0123456789".toList, text = "PROXY  ::  ".toList ++ [d, ' '] := by
  -- what follows `PROXY ` is split on its own and put together again from its fields
  have fields : text.splitOn ' ' = "PROXY".toList :: rest.splitOn ' ' := by
    rw [starts]
    exact List.splitOn_append_cons_self_of_not_mem (by decide) _
  have whole := @List.intercalate_splitOn Char rest _ _ ' '
  have room : rest.length ≤ 7 := by
    rw [starts] at short
    simp only [List.length_append, List.length_cons] at short
    exact Nat.le_of_add_le_add_left (a := 6) (by simpa [Nat.add_comm] using short)
  simp only [parseLine, fields, err] at parsed
  generalize rest.splitOn ' ' = fs at fields whole parsed
  split at parsed
  next unknown =>
    left
    obtain ⟨more, rfl⟩ : ∃ more, fs = "UNKNOWN".toList :: more := by
      cases fs with
      | nil => cases unknown
      | cons f more => exact ⟨more, by simpa using unknown⟩
    cases more with
    | nil =>
      rw [starts, ← whole]
      rfl
    | cons f more =>
      -- a further field needs an eighth character
      rw [← whole, List.intercalate_cons_cons, List.length_append, List.length_append] at room
      have seven : "UNKNOWN".toList.length = 7 := rfl
      have space : [' '].length = 1 := rfl
      omega
  next known =>
    right
    split at parsed
    next p1 p2 p3 p4 p5 more split =>
      obtain ⟨-, rfl⟩ := List.cons.inj split
      split at parsed
      next ip port parsedIp parsedPort =>
        obtain ⟨two, isUnspecified⟩ := parseIpAddr_length parsedIp
        obtain ⟨one, isDigit⟩ := parseU16_length parsedPort
        -- four spaces, two characters and one fill the seven there are
        have length := congrArg List.length whole
        cases more with
        | cons f more =>
          simp [List.intercalate] at length
          omega
        | nil =>
          simp [List.intercalate] at length
          obtain rfl : p1 = [] := List.length_eq_zero_iff.mp (by omega)
          obtain rfl : p3 = [] := List.length_eq_zero_iff.mp (by omega)
          obtain rfl : p5 = [] := List.length_eq_zero_iff.mp (by omega)
          obtain rfl := isUnspecified (by omega)
          obtain ⟨d, digit, rfl⟩ := isDigit (by omega)
          exact ⟨d, digit, by rw [starts, ← whole]; rfl⟩
      · cases parsed
    · cases parsed

/-- Only the two short headers are accepted with fewer than 16 bytes. -/
theorem shortHeader_of_parse {b : Bytes} {addr : Option SocketAddr} {n : Nat}
    (read : parseProxyProtocolHeader b = .ok (addr, n)) (short : n < 16) : ShortHeader b := by
  rcases parse_ok read with ⟨-, -, v2⟩ | ⟨v1, line⟩
  -- a v2 header has sixteen bytes and more
  · have := (parseV2_consumed v2).1
    omega
  · obtain ⟨c, rfl, -, first, parsed⟩ := parseV1_crlf line
    have six := firstCrlf_v1 v1 first.1
    obtain ⟨rest, front⟩ := List.prefix_take_iff.mpr ⟨v1, (six : V1_PREFIX.length ≤ c)⟩
    have starts := fromUtf8Lossy_v1 rest
    rw [front] at starts
    have size : (fromUtf8Lossy (b.take c)).length ≤ 13 := by
      have := fromUtf8Lossy_length_le (b.take c)
      rw [List.length_take] at this
      omega
    rcases parseLine_short starts size parsed with unknown | ⟨d, digit, fields⟩
    · exact Or.inl (header_of_text first.1 (by omega) unknown rfl (by decide))
    · have ascii : "0123456789".toList.all fun d => UInt8.ofNat d.toNat ∈ literal "0123456789" ∧
          Utf8.replacement ∉ "PROXY  ::  ".toList ++ [d, ' '] := by decide
      obtain ⟨byte, valid⟩ := of_decide_eq_true (List.all_eq_true.mp ascii d digit)
      exact Or.inr ⟨_, byte, header_of_text first.1 (by omega) fields rfl valid⟩

theorem parse_shortHeader {b : Bytes} (short : ShortHeader b) :
    ∃ addr, parseProxyProtocolHeader b = .ok (addr, 15) := by
  rcases short with ⟨rest, rfl⟩ | ⟨d, digit, rest, rfl⟩
  · have reads : parseProxyProtocolHeader (literal "PROXY UNKNOWN\r\n") = .ok (none, 15) := by
      decide
    exact ⟨_, Reader.Reads.append parse_local reads rest⟩
  · have reads : ∀ d ∈ literal "0123456789",
        parseProxyProtocolHeader (literal "PROXY  ::  " ++ d :: literal " \r\n") =
          .ok (some ⟨.v6 ⟨0, 0, 0, 0, 0, 0, 0, 0⟩, (d - 0x30).toUInt16⟩, 15) := by
      decide +kernel
    exact ⟨_, Reader.Reads.append parse_local (reads d digit) rest⟩

/-! ### Indices

The parser once more, with every index and slice checked: one out of bounds panics. -/

/-- `&buf[start..stop]` -/
def slice (buf : Bytes) (start stop : Nat) : Option Bytes :=
  if start ≤ stop ∧ stop ≤ buf.length then some ((buf.take stop).drop start) else none

def startsWithChecked (buf pre : Bytes) : Option Bool :=
  if pre.length ≤ buf.length then (slice buf 0 pre.length).map fun front => front = pre
  else some false

def parseV2Checked (buf : Bytes) :
    Option (Except ProxyProtocolFormatError (Option SocketAddr × Nat)) := do
  let verCmd : UInt8 ← buf[12]?
  if verCmd >>> 4 ≠ 0x2 then some (err "PROXY v2 version nibble != 2")
  else
    let command := verCmd &&& 0x0F
    let famProto ← buf[13]?
    let family := famProto >>> 4
    let high ← buf[14]?
    let low ← buf[15]?
    let addrLen := (fromBeBytes high low).toNat
    let headerLen := 16 + addrLen
    if buf.length < headerLen then
      some (err s!"PROXY v2 header truncated (need {headerLen} bytes)")
    else if command = 0 ∨ family = 0 then some (.ok (none, headerLen))
    else if family = 1 ∧ 12 ≤ addrLen then
      let a ← buf[16]?
      let b ← buf[17]?
      let c ← buf[18]?
      let d ← buf[19]?
      let port ← buf[24]?
      let port' ← buf[25]?
      some (.ok (some ⟨.v4 ⟨a, b, c, d⟩, fromBeBytes port port'⟩, headerLen))
    else if family = 2 ∧ 36 ≤ addrLen then
      let octets ← slice buf 16 32
      let port ← buf[48]?
      let port' ← buf[49]?
      some (.ok (some ⟨.v6 (Ipv6Addr.ofOctets octets), fromBeBytes port port'⟩, headerLen))
    else some (err s!"PROXY v2 address block too short for family {family}")

/-- The loop over the places `is` in which an LF may stand. -/
def scanCrlf (buf : Bytes) : List Nat → Option (Option Nat)
  | [] => some none
  | i :: is => do
    let a ← buf[i - 1]?
    let b ← buf[i]?
    if a = 0x0D ∧ b = 0x0A then some (some (i - 1)) else scanCrlf buf is

/-- `parts.len() >= 2 && parts[1] == "UNKNOWN"` -/
def isUnknownChecked (parts : List Text) : Option Bool :=
  if 2 ≤ parts.length then parts[1]?.map fun part => part = "UNKNOWN".toList else some false

def parseLineChecked (line : Text) : Option (Except ProxyProtocolFormatError (Option SocketAddr)) :=
  let parts := line.splitOn ' '
  let shown := String.ofList line
  do
    let unknown ← isUnknownChecked parts
    if unknown then some (.ok none)
    else if parts.length < 6 then some (err s!"PROXY v1 header has too few fields: '{shown}'")
    else
      let ip ← parts[2]?
      let port ← parts[4]?
      match parseIpAddr ip, parseU16 port with
      | some ip, some port => some (.ok (some ⟨ip, port⟩))
      | _, _ => some (err s!"PROXY v1 header has an unparseable source address: '{shown}'")

def parseV1Checked (buf : Bytes) :
    Option (Except ProxyProtocolFormatError (Option SocketAddr × Nat)) := do
  let limit := min buf.length 108
  let found ← scanCrlf buf (List.range' 1 (limit - 1))
  match found with
  | none => some (err "PROXY v1 header has no CRLF within 107 bytes")
  | some crlf =>
    let front ← slice buf 0 crlf
    let read ← parseLineChecked (fromUtf8Lossy front)
    match read with
    | .error e => some (.error e)
    | .ok addr => some (.ok (addr, crlf + 2))

def parseProxyProtocolHeaderChecked (buf : Bytes) :
    Option (Except ProxyProtocolFormatError (Option SocketAddr × Nat)) := do
  let v2 ← if 16 ≤ buf.length then startsWithChecked buf V2_SIGNATURE else some false
  if v2 then parseV2Checked buf
  else
    let v1 ← startsWithChecked buf V1_PREFIX
    if v1 then parseV1Checked buf else some (err "no PROXY protocol v1 or v2 signature")

private theorem startsWithChecked_eq (buf pre : Bytes) :
    startsWithChecked buf pre = some (startsWith buf pre) := by
  rw [startsWithChecked, startsWith]
  by_cases long : pre.length ≤ buf.length
  · simp [slice, long]
  · simp [long]

private theorem getElem_getD {buf : Bytes} {i : Nat} (inside : i < buf.length) :
    buf[i]? = some (buf.getD i 0) := by
  rw [List.getD_eq_getElem?_getD, List.getElem?_eq_getElem inside]
  rfl

private theorem parseV2Checked_eq {buf : Bytes} (long : 16 ≤ buf.length) :
    parseV2Checked buf = some (parseV2 buf) := by
  have inside (i : Nat) (below : i < buf.length) := getElem_getD below
  unfold parseV2Checked parseV2
  simp only [inside 12 (by omega), inside 13 (by omega), inside 14 (by omega),
    inside 15 (by omega), Option.bind_eq_bind, Option.bind_some]
  split_ifs with version short unspec inet inet6
  · rfl
  · rfl
  · rfl
  -- the addresses and ports lie in the block whose length was checked
  · simp only [inside 16 (by omega), inside 17 (by omega), inside 18 (by omega),
      inside 19 (by omega), inside 24 (by omega), inside 25 (by omega), Option.bind_some]
  · have octets : slice buf 16 32 = some ((buf.take 32).drop 16) := if_pos (by omega)
    simp only [inside 48 (by omega), inside 49 (by omega), octets, Option.bind_some]
  · rfl

private theorem scanCrlf_cons {a : UInt8} {buf : Bytes} {start count : Nat} (positive : 0 < start) :
    scanCrlf (a :: buf) (List.range' (start + 1) count) =
      (scanCrlf buf (List.range' start count)).map (Option.map (· + 1)) := by
  -- the places are those of the tail, one further on
  induction count generalizing start with
  | zero => rfl
  | succ count ih =>
    obtain ⟨before, rfl⟩ := Nat.exists_eq_add_one_of_ne_zero (Nat.pos_iff_ne_zero.mp positive)
    rw [List.range'_succ, List.range'_succ, scanCrlf, scanCrlf, ih (by omega)]
    simp only [Nat.add_sub_cancel, List.getElem?_cons_succ, Option.bind_eq_bind]
    cases buf[before]? with
    | none => rfl
    | some x =>
      cases buf[before + 1]? with
      | none => rfl
      | some y =>
        simp only [Option.bind_some]
        split
        · rfl
        · rfl

/-- The scan stays within the bytes there are, and finds what `findCrlf` finds in them. -/
theorem scanCrlf_eq {buf : Bytes} {n : Nat} (within : n ≤ buf.length) :
    scanCrlf buf (List.range' 1 (n - 1)) = some (findCrlf (buf.take n)) := by
  induction buf generalizing n with
  | nil =>
    obtain rfl : n = 0 := Nat.le_zero.mp within
    rfl
  | cons a buf ih =>
    match n with
    | 0 => rfl
    | 1 => rfl
    | n + 2 =>
      rw [List.length_cons] at within
      cases buf with
      | nil => simp at within
      | cons b rest =>
        have later := ih (n := n + 1) (by omega)
        rw [Nat.add_sub_cancel] at later
        rw [show n + 2 - 1 = n + 1 from rfl, List.range'_succ, scanCrlf,
          scanCrlf_cons (by decide), later]
        simp only [Nat.sub_self, List.getElem?_cons_zero, List.getElem?_cons_succ,
          List.take_succ_cons, findCrlf, Option.bind_eq_bind, Option.bind_some, Option.map_some]
        split
        · rfl
        · rfl

private theorem isUnknownChecked_eq (parts : List Text) :
    isUnknownChecked parts = some (decide (parts[1]? = some "UNKNOWN".toList)) := by
  match parts with
  | [] => rfl
  | [_] => rfl
  | _ :: second :: more =>
    rw [isUnknownChecked, if_pos (by simp)]
    simp only [List.getElem?_cons_succ, List.getElem?_cons_zero, Option.map_some, Option.some_inj]

private theorem parseLineChecked_eq (line : Text) :
    parseLineChecked line = some (parseLine line) := by
  unfold parseLineChecked parseLine
  simp only [isUnknownChecked_eq, Option.bind_eq_bind, Option.bind_some, decide_eq_true_eq]
  generalize line.splitOn ' ' = parts
  split
  · rfl
  · match parts with
    | [] | [_] | [_, _] | [_, _, _] | [_, _, _, _] | [_, _, _, _, _] => rfl
    | _ :: _ :: ip :: _ :: port :: _ :: more =>
      rw [if_neg (by simp)]
      simp only [List.getElem?_cons_succ, List.getElem?_cons_zero, Option.bind_some]
      split <;> rfl

private theorem parseV1Checked_eq (buf : Bytes) : parseV1Checked buf = some (parseV1 buf) := by
  have limit : buf.take (min buf.length 108) = buf.take 108 := by
    rw [Nat.min_comm, ← List.take_take, List.take_length]
  unfold parseV1Checked parseV1
  simp only [scanCrlf_eq (Nat.min_le_left _ _), limit, Option.bind_eq_bind, Option.bind_some]
  cases found : findCrlf (buf.take 108) with
  | none => rfl
  | some crlf =>
    have inside := (firstCrlf_take.mp (findCrlf_eq_some_iff.mp found)).1.1.length
    have front : slice buf 0 crlf = some (buf.take crlf) := if_pos (by omega)
    simp only [front, parseLineChecked_eq, Option.bind_some]
    split <;> rfl

/-- No index and no slice of the parser is out of bounds. -/
theorem parseProxyProtocolHeaderChecked_eq (buf : Bytes) :
    parseProxyProtocolHeaderChecked buf = some (parseProxyProtocolHeader buf) := by
  unfold parseProxyProtocolHeaderChecked parseProxyProtocolHeader
  simp only [startsWithChecked_eq, Option.bind_eq_bind, Option.bind_some]
  by_cases long : 16 ≤ buf.length
  · rw [if_pos long, parseV2Checked_eq long, parseV1Checked_eq]
    simp only [long, true_and]
    split_ifs <;> rfl
  · rw [if_neg long, parseV1Checked_eq]
    simp only [long, false_and, if_false, Bool.false_eq_true]
    split_ifs <;> rfl

/-- A header lies within its buffer, is parsed the same whatever follows it, and no buffer makes
the parser look out of bounds. -/
theorem parse_within_header (buf : Bytes) :
    (∀ addr n, parseProxyProtocolHeader buf = .ok (addr, n) →
      n ≤ buf.length ∧
        ∀ rest, parseProxyProtocolHeader (buf.take n ++ rest) = .ok (addr, n)) ∧
      parseProxyProtocolHeaderChecked buf = some (parseProxyProtocolHeader buf) :=
  ⟨fun _ _ read => ⟨parse_local.within read, parse_local.stable read⟩,
    parseProxyProtocolHeaderChecked_eq buf⟩

end ProxyProtocol

end MCGate
