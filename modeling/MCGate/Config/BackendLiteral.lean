import MCGate.Config.BackendAddress
import MCGate.Net.DnsCache
import MCGate.Std.AddrRoundTrip

/-!
# Addresses of backends without a lookup

The address of a backend is split at its last colon before anything looks for an IPv6 address
in it, so the last group of an address without a port is taken for one. What is left in front is
another address, or a hostname to look up; it is never the address itself. With a port, and for
IPv4 addresses also without one, the text is understood.
-/
namespace MCGate

namespace DnsCache

/-- `resolve`, and whether a lookup is awaited for it, which would find `found`. -/
def resolve (self : DnsCache) (found : Option SocketAddr) (host : Text) (port : UInt16) :
    DnsResult × Bool :=
  match isIpLiteral host port with
  | some addr => (.ok addr, false)
  | none =>
    match self.cache.lookup (keyOf host port) with
    -- a stale entry is answered with too, and refreshed in the background
    | some entry => (entry.result, false)
    | none => (doLookup host found, true)

end DnsCache

def resolveBackendAddress (dns : DnsCache) (found : Option SocketAddr) (value : Text) :
    DnsResult × Bool :=
  let (host, port) := splitHostPort value 25565
  dns.resolve found host port

private theorem resolveBackendAddress_eq (dns : DnsCache) (found : Option SocketAddr)
    (value : Text) :
    resolveBackendAddress dns found value =
      dns.resolve found (splitHostPort value 25565).1 (splitHostPort value 25565).2 := rfl

open DnsCache

/-- The steps of a call that answer it, answer with what `resolve` is. -/
theorem DnsTask.resolve_answered {s s' : DnsShared} {task task' : DnsTask} {choice : DnsChoice}
    {host : Text} {port : UInt16} {resolved : Bool} (named : isIpLiteral host port = none)
    (answers : task = .resolve host port ∧ (s.dns.cache.lookup (keyOf host port)).isSome ∨
      task = .resolving host port resolved ∧ s.dns.cache.lookup (keyOf host port) = none)
    (moved : next s choice task = some (s', task')) :
    ∃ answer, s'.answers = answer :: s.answers ∧
      s.dns.resolve choice.found host port = (answer.result, answer.looked) := by
  rcases answers with ⟨rfl, present⟩ | ⟨rfl, absent⟩
  · obtain ⟨entry, found⟩ := Option.isSome_iff_exists.mp present
    simp only [next, named, found, Option.some.injEq, Prod.mk.injEq] at moved
    obtain ⟨rfl, -⟩ := moved
    exact ⟨_, rfl, by simp only [DnsCache.resolve, named, found]⟩
  · simp only [next, Option.some.injEq, Prod.mk.injEq] at moved
    obtain ⟨rfl, -⟩ := moved
    exact ⟨_, rfl, by simp only [DnsCache.resolve, named, absent]⟩

/-! ### Literals -/

/-- The texts for an address, with a port or without: `a` and `a:p` for IPv4, `[a]`, `[a]:p` and
`a` for IPv6. -/
inductive AddressText where
  | v4 (ip : Ipv4Addr) (port : Option UInt16)
  | bracketed (ip : Ipv6Addr) (port : Option UInt16)
  | bare (ip : Ipv6Addr)

namespace AddressText

def displayPort : Option UInt16 → Text
  | some port => ':' :: Nat.toDigits 10 port.toNat
  | none => []

def display : AddressText → Text
  | .v4 ip port => displayIpv4 ip ++ displayPort port
  | .bracketed ip port => '[' :: displayIpv6 ip ++ ']' :: displayPort port
  | .bare ip => displayIpv6 ip

/-- The address that the text is meant for. -/
def addr : AddressText → SocketAddr
  | .v4 ip port => ⟨.v4 ip, port.getD 25565⟩
  | .bracketed ip port => ⟨.v6 ip, port.getD 25565⟩
  | .bare ip => ⟨.v6 ip, 25565⟩

/-- Whatever is in the cache, and whatever a lookup would find, the answer is the address and
nothing is looked up. -/
def Understood (text : AddressText) : Prop :=
  ∀ dns found, resolveBackendAddress dns found text.display = (.ok text.addr, false)

/-- The address is an IPv4 one, or a port is written behind it. -/
def Unambiguous : AddressText → Prop
  | .v4 _ _ => True
  | .bracketed _ port => port.isSome
  | .bare _ => False

end AddressText

section Literals

private theorem splitHostPort_port (host : Text) (port defaultPort : UInt16) :
    splitHostPort (host ++ AddressText.displayPort (some port)) defaultPort = (host, port) := by
  have absent : ':' ∉ Nat.toDigits 10 port.toNat := notMem_decimal (by decide) port.toNat
  rw [AddressText.displayPort, splitHostPort_last host absent, parseU16_toDigits,
    Option.getD_some]

private theorem splitHostPort_noColon {host : Text} (absent : ':' ∉ host) (defaultPort : UInt16) :
    splitHostPort host defaultPort = (host, defaultPort) := by
  rw [splitHostPort, rfind_eq_none absent]

private theorem isIpLiteral_v4 (ip : Ipv4Addr) (port : UInt16) :
    isIpLiteral (displayIpv4 ip) port = some ⟨.v4 ip, port⟩ := by
  have read := @readIpv4Addr_displayIpv4 ip [] (noDigit_nil 10)
  rw [List.append_nil] at read
  rw [isIpLiteral, read]

private theorem dropWhile_eq_self {p : Char → Bool} {text : Text} (none : ∀ c ∈ text, p c = false) :
    text.dropWhile p = text := by
  cases text with
  | nil => rfl
  | cons c text =>
    apply List.dropWhile_cons_of_neg
    rw [none c List.mem_cons_self]
    exact Bool.false_ne_true

/-- The brackets around a host are stripped, on one side as on both. -/
theorem strip_brackets {front host back : Text} (opens : ∀ c ∈ front, c = '[')
    (closes : ∀ c ∈ back, c = ']') (noOpen : '[' ∉ host) (noClose : ']' ∉ host) :
    trimEndMatches (· = ']') ((front ++ (host ++ back)).dropWhile (· = '[')) = host := by
  have start : ∀ c ∈ host ++ back, decide (c = '[') = false := by
    intro c member
    rw [decide_eq_false_iff_not]
    rintro rfl
    rcases List.mem_append.mp member with inside | outside
    · exact noOpen inside
    · exact absurd (closes _ outside) (by decide)
  have stop : ∀ c ∈ host.reverse, decide (c = ']') = false := by
    intro c member
    rw [decide_eq_false_iff_not]
    rintro rfl
    exact noClose (List.mem_reverse.mp member)
  rw [List.dropWhile_append_of_pos fun c member => decide_eq_true (opens c member),
    dropWhile_eq_self start, trimEndMatches, List.rdropWhile, List.reverse_append,
    List.dropWhile_append_of_pos, dropWhile_eq_self stop, List.reverse_reverse]
  intro c member
  exact decide_eq_true (closes c (List.mem_reverse.mp member))

variable {host : Text} {ip : Ipv6Addr} {port p : UInt16}

private theorem bracket_notMem_displayIpv6 (ip : Ipv6Addr) :
    '[' ∉ displayIpv6 ip ∧ ']' ∉ displayIpv6 ip :=
  ⟨notMem_displayIp (by decide) (by decide) (by decide) (.v6 ip),
    notMem_displayIp (by decide) (by decide) (by decide) (.v6 ip)⟩

private theorem colon_mem_displayIpv6 (ip : Ipv6Addr) : ':' ∈ displayIpv6 ip := by
  obtain ⟨host, last, text, -⟩ := ip.cutApart_displayIpv6
  rw [text]
  exact List.mem_append_right _ List.mem_cons_self

private theorem isIpLiteral_bracketed (ip : Ipv6Addr) (port : UInt16) :
    isIpLiteral ('[' :: displayIpv6 ip ++ [']']) port = some ⟨.v6 ip, port⟩ := by
  have noV4 : readIpv4Addr ('[' :: displayIpv6 ip ++ [']']) = none :=
    readIpv4Addr_noDigit (noDigit_cons (by decide))
  have colon : ':' ∈ '[' :: displayIpv6 ip ++ [']'] :=
    List.mem_append_left _ (List.mem_cons_of_mem _ (colon_mem_displayIpv6 ip))
  have stripped : trimEndMatches (· = ']')
      (('[' :: displayIpv6 ip ++ [']']).dropWhile (· = '[')) = displayIpv6 ip :=
    @strip_brackets ['['] _ [']'] (by simp) (by simp) (bracket_notMem_displayIpv6 ip).1
      (bracket_notMem_displayIpv6 ip).2
  simp only [isIpLiteral, noV4, if_pos colon, stripped, Ipv6Addr.readIpv6Addr_displayIpv6]

private theorem readIpv6Addr_of_isIpLiteral (named : isIpLiteral host port = some ⟨.v6 ip, p⟩) :
    readIpv6Addr (trimEndMatches (· = ']') (host.dropWhile (· = '['))) = some (ip, []) := by
  unfold isIpLiteral at named
  split at named
  · cases named
  · split at named
    · split at named
      next read =>
        cases named
        exact read
      next => cases named
    · cases named

/-- Without a port the host is cut off inside the address, and is not the address any more. -/
theorem isIpLiteral_cut (ip : Ipv6Addr) (port p : UInt16) {front back : Text}
    (opens : ∀ c ∈ front, c = '[') (absent : ':' ∉ back) :
    isIpLiteral (splitHostPort (front ++ (displayIpv6 ip ++ back)) 25565).1 port ≠
      some ⟨.v6 ip, p⟩ := by
  obtain ⟨host, last, text, noColon, apart⟩ := ip.cutApart_displayIpv6
  have whole : front ++ (displayIpv6 ip ++ back) = (front ++ host) ++ ':' :: (last ++ back) := by
    rw [text, List.append_assoc, List.append_assoc]
    rfl
  -- the host is a part of the address, so it has no brackets but those in front
  have inside : ∀ c ∈ host, c ∈ displayIpv6 ip := by
    intro c member
    rw [text]
    exact List.mem_append_left _ member
  rw [whole, splitHostPort_last _ (mt List.mem_append.mp (not_or.mpr ⟨noColon, absent⟩))]
  intro named
  have read := readIpv6Addr_of_isIpLiteral named
  have stripped := @strip_brackets front host [] opens nofun
    (mt (inside _) (bracket_notMem_displayIpv6 ip).1)
    (mt (inside _) (bracket_notMem_displayIpv6 ip).2)
  rw [List.append_nil] at stripped
  rw [stripped] at read
  exact apart read

end Literals

namespace AddressText

variable {text : AddressText}

/-- Only a literal is answered without a lookup whatever is in the cache. -/
theorem understood_iff_isIpLiteral :
    text.Understood ↔ isIpLiteral (splitHostPort text.display 25565).1
      (splitHostPort text.display 25565).2 = some text.addr := by
  constructor
  · intro understood
    -- an empty cache has no other answer than a lookup
    have empty := understood ⟨∅, ∅⟩ none
    rw [resolveBackendAddress_eq, DnsCache.resolve] at empty
    split at empty
    next addr named =>
      rw [named]
      exact congrArg some (Except.ok.inj (Prod.mk.inj empty).1)
    next =>
      rw [AList.lookup_empty] at empty
      cases (Prod.mk.inj empty).2
  · intro named dns found
    rw [resolveBackendAddress_eq, DnsCache.resolve, named]

/-- The text of an address is understood exactly where an IPv4 address or a port is written. -/
theorem understood_iff (text : AddressText) : text.Understood ↔ text.Unambiguous := by
  rw [understood_iff_isIpLiteral]
  cases text with
  | v4 ip port =>
    refine iff_of_true ?_ trivial
    cases port with
    | some port =>
      rw [display, splitHostPort_port]
      exact isIpLiteral_v4 ip port
    | none =>
      have absent : ':' ∉ displayIpv4 ip := notMem_displayIpv4 (by decide) (by decide) ip
      rw [display, displayPort, List.append_nil, splitHostPort_noColon absent]
      exact isIpLiteral_v4 ip 25565
  | bracketed ip port =>
    cases port with
    | some port =>
      refine iff_of_true ?_ rfl
      -- the last colon is the one behind the bracket
      have whole : display (.bracketed ip (some port)) =
          ('[' :: displayIpv6 ip ++ [']']) ++ displayPort (some port) := by
        rw [display, List.append_assoc, List.singleton_append]
      rw [whole, splitHostPort_port]
      exact isIpLiteral_bracketed ip port
    | none =>
      refine iff_of_false ?_ Bool.false_ne_true
      exact @isIpLiteral_cut ip _ _ ['['] [']'] (by simp) (by decide)
  | bare ip =>
    refine iff_of_false ?_ not_false
    have cut := @isIpLiteral_cut ip (splitHostPort (displayIpv6 ip) 25565).2 25565 [] []
      nofun List.not_mem_nil
    rw [List.nil_append, List.append_nil] at cut
    exact cut

-- the last group becomes the port of another address
example : resolveBackendAddress ⟨∅, ∅⟩ none "::1:2:3".toList =
    (.ok ⟨.v6 ⟨0, 0, 0, 0, 0, 0, 1, 2⟩, 3⟩, false) := by decide +kernel

/-- `[::1]` is looked up as the hostname `[:`. -/
theorem loopback_looked_up : ¬ ∀ text : AddressText, text.Understood := by
  intro understood
  have empty := understood (.bracketed ⟨0, 0, 0, 0, 0, 0, 0, 1⟩ none) ⟨∅, ∅⟩ none
  have looked : (resolveBackendAddress ⟨∅, ∅⟩ none
      (display (.bracketed ⟨0, 0, 0, 0, 0, 0, 0, 1⟩ none))).2 = true := by decide +kernel
  rw [empty] at looked
  cases looked

end AddressText

end MCGate
