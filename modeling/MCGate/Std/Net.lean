import Mathlib.Algebra.Group.Nat.Defs
import MCGate.Std.Text

/-!
# IP and socket addresses

`std::net`'s address types with their text forms. The parser follows the standard
library's: an IPv4 address is four decimal groups without leading zeros, an IPv6
address is up to eight hexadecimal groups around at most one `::`, of which the
last two may be written as an IPv4 address.
-/
namespace MCGate

structure Ipv4Addr where
  a : UInt8
  b : UInt8
  c : UInt8
  d : UInt8
  deriving DecidableEq, Repr

structure Ipv6Addr where
  s0 : UInt16
  s1 : UInt16
  s2 : UInt16
  s3 : UInt16
  s4 : UInt16
  s5 : UInt16
  s6 : UInt16
  s7 : UInt16
  deriving DecidableEq, Repr

inductive IpAddr where
  | v4 (addr : Ipv4Addr)
  | v6 (addr : Ipv6Addr)
  deriving DecidableEq, Repr

structure SocketAddr where
  ip : IpAddr
  port : UInt16
  deriving DecidableEq, Repr

/-- `u16::from_be_bytes` -/
def fromBeBytes (hi lo : UInt8) : UInt16 := (hi.toUInt16 <<< 8) ||| lo.toUInt16

theorem toNat_fromBeBytes (hi lo : UInt8) :
    (fromBeBytes hi lo).toNat = hi.toNat * 256 + lo.toNat := by
  have low : lo.toNat < 2 ^ 8 := lo.toNat_lt
  have high := hi.toNat_lt
  rw [fromBeBytes, UInt16.toNat_or, UInt16.toNat_shiftLeft, UInt8.toNat_toUInt16,
    UInt8.toNat_toUInt16]
  have shifted : hi.toNat <<< ((8 : UInt16).toNat % 16) % 2 ^ 16 = 2 ^ 8 * hi.toNat := by
    rw [show (8 : UInt16).toNat % 16 = 8 from rfl, Nat.shiftLeft_eq]
    omega
  rw [shifted, ← Nat.two_pow_add_eq_or_of_lt low]
  omega

/-- The two bytes of `u16::to_be_bytes` are put together again. -/
theorem fromBeBytes_toBeBytes (n : UInt16) : fromBeBytes (n >>> 8).toUInt8 n.toUInt8 = n := by
  have high : (n >>> 8).toNat = n.toNat / 256 := by
    rw [UInt16.toNat_shiftRight]
    exact Nat.shiftRight_eq_div_pow n.toNat 8
  have below := n.toNat_lt
  rw [← UInt16.toNat_inj, toNat_fromBeBytes, UInt16.toNat_toUInt8, UInt16.toNat_toUInt8, high]
  omega

namespace Ipv6Addr

def segments (ip : Ipv6Addr) : List UInt16 :=
  [ip.s0, ip.s1, ip.s2, ip.s3, ip.s4, ip.s5, ip.s6, ip.s7]

def ofSegments (s : List UInt16) : Ipv6Addr :=
  ⟨s.getD 0 0, s.getD 1 0, s.getD 2 0, s.getD 3 0, s.getD 4 0, s.getD 5 0, s.getD 6 0, s.getD 7 0⟩

/-- `Ipv6Addr::from([u8; 16])` -/
def ofOctets (o : Bytes) : Ipv6Addr :=
  ofSegments ((List.range 8).map fun i => fromBeBytes (o.getD (2 * i) 0) (o.getD (2 * i + 1) 0))

end Ipv6Addr

namespace IpAddr

def isUnspecified : IpAddr → Bool
  | .v4 ip => ip = ⟨0, 0, 0, 0⟩
  | .v6 ip => ip = ⟨0, 0, 0, 0, 0, 0, 0, 0⟩

def isLoopback : IpAddr → Bool
  | .v4 ip => ip.a = 127
  | .v6 ip => ip = ⟨0, 0, 0, 0, 0, 0, 0, 1⟩

def isIpv6 : IpAddr → Bool
  | .v4 _ => false
  | .v6 _ => true

end IpAddr

/-! ### Parsing -/

/-- `char::to_digit` -/
def toDigit (radix : Nat) (c : Char) : Option Nat :=
  let value :=
    if '0' ≤ c ∧ c ≤ '9' then some (c.toNat - '0'.toNat)
    else if 'a' ≤ c ∧ c ≤ 'f' then some (c.toNat - 'a'.toNat + 10)
    else if 'A' ≤ c ∧ c ≤ 'F' then some (c.toNat - 'A'.toNat + 10)
    else none
  value.filter (· < radix)

/-- The longest run of digits at the front, as digit values, and what follows it. -/
def readDigits (radix : Nat) : Text → List Nat × Text
  | [] => ([], [])
  | c :: rest =>
    match toDigit radix c with
    | none => ([], c :: rest)
    | some d => (d :: (readDigits radix rest).1, (readDigits radix rest).2)

def digitsValue (radix : Nat) (digits : List Nat) : Nat :=
  digits.foldl (fun acc d => acc * radix + d) 0

/-- `Parser::read_number`, for a type whose largest value is `max` -/
def readNumber (radix maxDigits : Nat) (allowZeroPrefix : Bool) (max : Nat) (text : Text) :
    Option (Nat × Text) :=
  match readDigits radix text with
  | ([], _) => none
  | (digits, rest) =>
    if maxDigits < digits.length then none
    -- `01` is not a number where a leading zero is not allowed
    else if ¬ allowZeroPrefix ∧ digits.head? = some 0 ∧ 1 < digits.length then none
    else if max < digitsValue radix digits then none
    else some (digitsValue radix digits, rest)

/-- `Parser::read_separator`: every item but the first follows `sep`. -/
def readSeparator {α : Type} (sep : Char) (first : Bool) (item : Text → Option (α × Text))
    (text : Text) : Option (α × Text) :=
  if first then item text
  else match text with
    | [] => none
    | c :: rest => if c = sep then item rest else none

def readIpv4Group (first : Bool) (text : Text) : Option (UInt8 × Text) :=
  (readSeparator '.' first (readNumber 10 3 false 255) text).map fun (n, rest) =>
    (UInt8.ofNat n, rest)

def readIpv4Addr (text : Text) : Option (Ipv4Addr × Text) := do
  let (a, text) ← readIpv4Group true text
  let (b, text) ← readIpv4Group false text
  let (c, text) ← readIpv4Group false text
  let (d, text) ← readIpv4Group false text
  return (⟨a, b, c, d⟩, text)

/-- `read_groups`: at most `limit` groups, whether they end in an IPv4 address, and the
text after them. -/
def readGroups : (limit : Nat) → (first : Bool) → Text → List UInt16 × Bool × Text
  | 0, _, text => ([], false, text)
  | limit + 1, first, text =>
    -- an embedded IPv4 address takes two groups
    match if 1 ≤ limit then readSeparator ':' first readIpv4Addr text else none with
    | some (v4, rest) => ([fromBeBytes v4.a v4.b, fromBeBytes v4.c v4.d], true, rest)
    | none =>
      match readSeparator ':' first (readNumber 16 4 true 65535) text with
      | some (group, rest) =>
        let (groups, v4, rest) := readGroups limit false rest
        (UInt16.ofNat group :: groups, v4, rest)
      | none => ([], false, text)

def readIpv6Addr (text : Text) : Option (Ipv6Addr × Text) :=
  match readGroups 8 true text with
  | (head, v4, rest) =>
    if head.length = 8 then some (.ofSegments head, rest)
    -- `::` cannot follow an embedded IPv4 address
    else if v4 then none
    else match rest with
      | ':' :: ':' :: rest =>
        -- the `::` stands for at least one group
        let (tail, _, rest) := readGroups (8 - (head.length + 1)) true rest
        some (.ofSegments (head ++ List.replicate (8 - tail.length - head.length) 0 ++ tail), rest)
      | _ => none

/-- `str::parse::<IpAddr>` -/
def parseIpAddr (text : Text) : Option IpAddr :=
  let read := match readIpv4Addr text with
    | some (ip, rest) => some (IpAddr.v4 ip, rest)
    | none => (readIpv6Addr text).map fun (ip, rest) => (IpAddr.v6 ip, rest)
  match read with
  | some (ip, []) => some ip
  | _ => none

/-- `str::parse::<u16>` -/
def parseU16 (text : Text) : Option UInt16 :=
  -- a leading `+` is allowed, a lone `+` is not
  let digits := if text.head? = some '+' then text.tail else text
  match readDigits 10 digits with
  | ([], _) => none
  | (ds, []) => if digitsValue 10 ds ≤ 65535 then some (UInt16.ofNat (digitsValue 10 ds)) else none
  | _ => none

example : parseIpAddr "192.168.1.1".toList = some (.v4 ⟨192, 168, 1, 1⟩) := by decide
example : parseIpAddr "fe80::1:2".toList = some (.v6 ⟨0xfe80, 0, 0, 0, 0, 0, 1, 2⟩) := by decide
example : parseIpAddr "01.2.3.4".toList = none := by decide

/-! ### How short an address can be -/

theorem readDigits_length (radix : Nat) (text : Text) :
    (readDigits radix text).1.length + (readDigits radix text).2.length = text.length := by
  fun_induction readDigits radix text with
  | case1 => rfl
  | case2 => simp
  | case3 c rest d digit ih =>
    simp only [List.length_cons]
    omega

theorem readNumber_shorter {radix maxDigits max n : Nat} {zero : Bool} {text rest : Text}
    (read : readNumber radix maxDigits zero max text = some (n, rest)) :
    rest.length + 1 ≤ text.length := by
  have total := readDigits_length radix text
  simp only [readNumber] at read
  split at read
  · cases read
  next digits left some cut =>
    simp only [cut] at total
    have : 0 < digits.length := List.length_pos_iff.mpr some
    split_ifs at read
    rw [← (Prod.mk.inj (Option.some.inj read)).2]
    omega

/-- An item that is shorter by `k` characters is shorter by one more after a separator. -/
theorem readSeparator_shorter {α : Type} {sep : Char} {first : Bool}
    {item : Text → Option (α × Text)} {text rest : Text} {v : α} {k : Nat}
    (shorter : ∀ {t v r}, item t = some (v, r) → r.length + k ≤ t.length)
    (read : readSeparator sep first item text = some (v, rest)) :
    rest.length + k ≤ text.length ∧ (first = false → rest.length + k < text.length) := by
  simp only [readSeparator] at read
  split at read
  next isFirst =>
    refine ⟨shorter read, fun notFirst => ?_⟩
    simp [isFirst] at notFirst
  · split at read
    · cases read
    next c tail =>
      split at read
      · have := shorter read
        simp only [List.length_cons]
        omega
      · cases read

theorem readIpv4Group_shorter {first : Bool} {text rest : Text} {n : UInt8}
    (read : readIpv4Group first text = some (n, rest)) :
    rest.length + 1 ≤ text.length ∧ (first = false → rest.length + 1 < text.length) := by
  obtain ⟨⟨v, r⟩, item, same⟩ := Option.map_eq_some_iff.mp read
  cases same
  exact readSeparator_shorter readNumber_shorter item

theorem readIpv4Addr_shorter {text rest : Text} {ip : Ipv4Addr}
    (read : readIpv4Addr text = some (ip, rest)) : rest.length + 7 ≤ text.length := by
  simp only [readIpv4Addr, Option.bind_eq_bind, Option.bind_eq_some_iff, Prod.exists,
    Option.pure_def, Option.some.injEq, Prod.mk.injEq] at read
  obtain ⟨a, t1, r1, b, t2, r2, c, t3, r3, d, t4, r4, -, rfl⟩ := read
  -- four digits and, before all but the first, a dot: seven characters
  have := (readIpv4Group_shorter r1).1
  have := (readIpv4Group_shorter r2).2 rfl
  have := (readIpv4Group_shorter r3).2 rfl
  have := (readIpv4Group_shorter r4).2 rfl
  omega

/-- Every group takes at least one character; no group leaves the text as it was. -/
theorem readGroups_shorter (limit : Nat) (first : Bool) (text : Text) :
    (readGroups limit first text).2.2.length + (readGroups limit first text).1.length ≤
      text.length ∧
    ((readGroups limit first text).1 = [] → (readGroups limit first text).2.2 = text) := by
  fun_induction readGroups limit first text with
  | case1 => simp
  | case2 limit first text v4 rest read =>
    -- an embedded IPv4 address is two groups and takes seven characters
    split_ifs at read
    have := readSeparator_shorter readIpv4Addr_shorter read
    simp only [List.length_cons, List.length_nil, reduceCtorEq, false_implies, and_true]
    omega
  | case3 limit first text _ group rest read groups v4 left split ih =>
    have := readSeparator_shorter readNumber_shorter read
    simp only [split] at ih
    simp only [List.length_cons, reduceCtorEq, false_implies, and_true]
    omega
  | case4 => simp

theorem readIpv6Addr_shorter {text rest : Text} {ip : Ipv6Addr}
    (read : readIpv6Addr text = some (ip, rest)) :
    rest.length + 2 ≤ text.length ∧ (text.length = 2 → text = [':', ':']) := by
  have groups := readGroups_shorter 8 true text
  simp only [readIpv6Addr] at read
  generalize readGroups 8 true text = read1 at groups read
  obtain ⟨head, v4, left⟩ := read1
  simp only at groups read
  split_ifs at read with full
  · cases read
    omega
  · split at read
    next tail =>
      have more := readGroups_shorter (8 - (head.length + 1)) true tail
      generalize readGroups (8 - (head.length + 1)) true tail = read2 at more read
      simp only [Option.some.injEq, Prod.mk.injEq] at read
      rw [read.2] at more
      simp only [List.length_cons] at groups
      refine ⟨by omega, fun two => ?_⟩
      -- two characters leave no room for a group on either side
      have none : head = [] := List.length_eq_zero_iff.mp (by omega)
      have nothing : tail = [] := List.length_eq_zero_iff.mp (by omega)
      rw [← groups.2 none, nothing]
    · cases read

/-- An address has at least two characters, and with two it is `::`. -/
theorem parseIpAddr_length {text : Text} {ip : IpAddr} (parsed : parseIpAddr text = some ip) :
    2 ≤ text.length ∧ (text.length = 2 → text = [':', ':']) := by
  simp only [parseIpAddr] at parsed
  split at parsed
  next ip' read =>
    split at read
    next v4 =>
      cases read
      have := readIpv4Addr_shorter v4
      omega
    next v4 =>
      obtain ⟨⟨v6, r⟩, v6read, same⟩ := Option.map_eq_some_iff.mp read
      cases same
      have := readIpv6Addr_shorter v6read
      exact ⟨by omega, this.2⟩
  · cases parsed

theorem toDigit_ten {c : Char} {d : Nat} (digit : toDigit 10 c = some d) :
    c ∈ "0123456789".toList := by
  simp only [toDigit, Option.filter_eq_some_iff, decide_eq_true_eq] at digit
  obtain ⟨value, small⟩ := digit
  split_ifs at value with decimal
  · have low : 48 ≤ c.toNat := decimal.1
    have high : c.toNat ≤ 57 := decimal.2
    have digits : ∀ n ∈ List.range' 48 10, Char.ofNat n ∈ "0123456789".toList := by decide
    rw [← Char.ofNat_toNat c]
    exact digits _ (List.mem_range'_1.mpr (by omega))
  -- the letters stand for ten and more
  · cases value
    omega
  · cases value
    omega

/-- A port has at least one character, and with one it is a digit. -/
theorem parseU16_length {text : Text} {n : UInt16} (parsed : parseU16 text = some n) :
    1 ≤ text.length ∧ (text.length = 1 → ∃ c ∈ "0123456789".toList, text = [c]) := by
  cases text with
  | nil => simp [parseU16, readDigits] at parsed
  | cons c rest =>
    refine ⟨by simp, fun one => ⟨c, ?_, ?_⟩⟩
    · obtain rfl : rest = [] := List.length_eq_zero_iff.mp (by simpa using one)
      by_cases plus : c = '+'
      · subst plus
        simp [parseU16, readDigits] at parsed
      · cases digit : toDigit 10 c with
        | none => simp [parseU16, plus, readDigits, digit] at parsed
        | some d => exact toDigit_ten digit
    · rw [List.length_eq_zero_iff.mp (show rest.length = 0 by simpa using one)]

/-! ### Display -/

def displayIpv4 (ip : Ipv4Addr) : Text :=
  Nat.toDigits 10 ip.a.toNat ++ '.' :: Nat.toDigits 10 ip.b.toNat ++ '.' ::
    Nat.toDigits 10 ip.c.toNat ++ '.' :: Nat.toDigits 10 ip.d.toNat

/-- The first longest run of zero segments, as start and length. -/
def longestZeroes (segments : List UInt16) : Nat × Nat :=
  let step := fun (i, cur, best) (s : UInt16) =>
    if s = 0 then
      let cur : Nat × Nat := if cur.2 = 0 then (i, 1) else (cur.1, cur.2 + 1)
      (i + 1, cur, if best.2 < cur.2 then cur else best)
    else (i + 1, (0, 0), best)
  (segments.foldl step ((0 : Nat), ((0, 0) : Nat × Nat), ((0, 0) : Nat × Nat))).2.2

def displaySegments (segments : List UInt16) : Text :=
  List.intercalate [':'] (segments.map fun s => Nat.toDigits 16 s.toNat)

def displayIpv6 (ip : Ipv6Addr) : Text :=
  if ip.segments.take 6 = [0, 0, 0, 0, 0, 0xFFFF] then
    "::ffff:".toList ++ displayIpv4 ⟨(ip.s6 >>> 8).toUInt8, ip.s6.toUInt8, (ip.s7 >>> 8).toUInt8,
      ip.s7.toUInt8⟩
  else
    let (start, len) := longestZeroes ip.segments
    if 1 < len then
      displaySegments (ip.segments.take start) ++ ':' :: ':' ::
        displaySegments (ip.segments.drop (start + len))
    else displaySegments ip.segments

/-- `IpAddr`'s `to_string` -/
def displayIp : IpAddr → Text
  | .v4 ip => displayIpv4 ip
  | .v6 ip => displayIpv6 ip

example :
    displayIp (.v6 ⟨0x2001, 0xdb8, 0, 0, 1, 0, 0, 1⟩) = "2001:db8::1:0:0:1".toList := by
  decide

end MCGate
