import Mathlib.Algebra.Group.Int.Defs
import MCGate.Std.AddrRoundTrip
import MCGate.Std.Yaml

/-!
# JSON

Values as `serde_json` has them, and a reader of the texts that every JSON parser reads alike:
names of an object are distinct, nothing is nested deeper than `serde_json` follows it, and
numbers are integers of 64 bits. A text `Spells` a value when the reader finds it there whatever
follows; texts that are put together of such pieces spell the values put together of theirs.
-/
namespace MCGate.Api

open Yaml

/-- `serde_json::Value`; its numbers have the three kinds of `serde_yaml`'s. -/
inductive Json where
  | null
  | bool (b : Bool)
  | number (n : Number)
  | string (s : Text)
  | array (items : List Json)
  | object (entries : List (Text × Json))

def Json.asStr : Json → Option Text
  | .string s => some s
  | _ => none

/-- `v.get("host")` -/
def Json.get (key : Text) : Json → Option Json
  | .object entries => (entries.find? fun entry => entry.1 = key).map Prod.snd
  | _ => none

namespace Json

/-- What the names of a path lead to. -/
def atPath : List Text → Json → Option Json
  | [], json => some json
  | key :: path, json => (json.get key).bind (atPath path)

/-- The value, unless it is made of others. -/
def scalar : Json → Option Json
  | .array _ => none
  | .object _ => none
  | json => some json

/-! ### Reading -/

def isSpace (c : Char) : Bool := c = ' ' ∨ c = '\n' ∨ c = '\r' ∨ c = '\t'

def skipSpaces (text : Text) : Text := text.dropWhile isSpace

/-- Four hexadecimal digits. -/
def readHex4 : Text → Option (Nat × Text)
  | a :: b :: c :: d :: rest => do
    let a ← toDigit 16 a
    let b ← toDigit 16 b
    let c ← toDigit 16 c
    let d ← toDigit 16 d
    return (((a * 16 + b) * 16 + c) * 16 + d, rest)
  | _ => none

def unescape (c : Char) : Option Char :=
  if c = '"' ∨ c = '\\' ∨ c = '/' then some c
  else if c = 'b' then some '\x08'
  else if c = 'f' then some '\x0c'
  else if c = 'n' then some '\n'
  else if c = 'r' then some '\r'
  else if c = 't' then some '\t'
  else none

/-- What follows a backslash. -/
def readEscape : Text → Option (Char × Text)
  | [] => none
  | c :: rest =>
    if c = 'u' then do
      let (high, rest) ← readHex4 rest
      if 0xDC00 ≤ high ∧ high < 0xE000 then none
      else if 0xD800 ≤ high ∧ high < 0xDC00 then
        -- the first half of a pair
        match rest with
        | '\\' :: 'u' :: rest => do
          let (low, rest) ← readHex4 rest
          if 0xDC00 ≤ low ∧ low < 0xE000 then
            return (Char.ofNat (0x10000 + (high - 0xD800) * 0x400 + (low - 0xDC00)), rest)
          else none
        | _ => none
      else return (Char.ofNat high, rest)
    else (unescape c).map fun c => (c, rest)

def readChar : Text → Option (Char × Text)
  | [] => none
  | c :: rest =>
    if c = '\\' then readEscape rest
    else if c.toNat < 0x20 then none
    else some (c, rest)

/-- The rest of a string, after its opening quote. -/
def readChars : (fuel : Nat) → Text → Option (Text × Text)
  | 0, _ => none
  | fuel + 1, text =>
    match text with
    | [] => none
    | c :: rest =>
      if c = '"' then some ([], rest)
      else do
        let (c, rest) ← readChar (c :: rest)
        let (cs, rest) ← readChars fuel rest
        return (c :: cs, rest)

/-- An integer of 64 bits; a minus sign does not stand in front of zero. -/
def readInteger (text : Text) : Option (Number × Text) :=
  let (negative, body) := if text.head? = some '-' then (true, text.tail) else (false, text)
  match readDigits 10 body with
  | ([], _) => none
  | (digits, rest) =>
    let n := digitsValue 10 digits
    if digits.head? = some 0 ∧ 1 < digits.length then none
    else if rest.head? = some '.' ∨ rest.head? = some 'e' ∨ rest.head? = some 'E' then none
    else if negative then
      if 0 < n ∧ n ≤ 2 ^ 63 then some (.negInt (Int64.ofInt (-n)), rest) else none
    else if n < 2 ^ 64 then some (.posInt (UInt64.ofNat n), rest) else none

def readWord (word : Text) (value : Json) (text : Text) : Option (Json × Text) :=
  if word.isPrefixOf text then some (value, text.drop word.length) else none

mutual

/-- A value and what follows it; `depth` is how deep it may be nested. -/
def readValue : (fuel depth : Nat) → Text → Option (Json × Text)
  | 0, _, _ => none
  | fuel + 1, depth, text =>
    match skipSpaces text with
    | [] => none
    | c :: rest =>
      if c = '"' then (readChars fuel rest).map fun (s, rest) => (.string s, rest)
      else if c = '{' then
        match depth with
        | 0 => none
        | depth + 1 =>
          if (skipSpaces rest).head? = some '}' then some (.object [], (skipSpaces rest).tail)
          else (readMembers fuel depth rest).map fun (entries, rest) => (.object entries, rest)
      else if c = '[' then
        match depth with
        | 0 => none
        | depth + 1 =>
          if (skipSpaces rest).head? = some ']' then some (.array [], (skipSpaces rest).tail)
          else (readItems fuel depth rest).map fun (items, rest) => (.array items, rest)
      else if c = 't' then readWord "rue".toList (.bool true) rest
      else if c = 'f' then readWord "alse".toList (.bool false) rest
      else if c = 'n' then readWord "ull".toList .null rest
      else (readInteger (c :: rest)).map fun (n, rest) => (.number n, rest)

/-- The members of an object that has one, and its closing brace. -/
def readMembers : (fuel depth : Nat) → Text → Option (List (Text × Json) × Text)
  | 0, _, _ => none
  | fuel + 1, depth, text =>
    match skipSpaces text with
    | '"' :: rest => do
      let (name, rest) ← readChars fuel rest
      match skipSpaces rest with
      | ':' :: rest => do
        let (value, rest) ← readValue fuel depth rest
        match skipSpaces rest with
        | '}' :: rest => return ([(name, value)], rest)
        | ',' :: rest => do
          let (others, rest) ← readMembers fuel depth rest
          if others.any fun other => other.1 = name then none
          else return ((name, value) :: others, rest)
        | _ => none
      | _ => none
    | _ => none

/-- The items of an array that has one, and its closing bracket. -/
def readItems : (fuel depth : Nat) → Text → Option (List Json × Text)
  | 0, _, _ => none
  | fuel + 1, depth, text => do
    let (item, rest) ← readValue fuel depth text
    match skipSpaces rest with
    | ']' :: rest => return ([item], rest)
    | ',' :: rest => do
      let (others, rest) ← readItems fuel depth rest
      return (item :: others, rest)
    | _ => none

end

/-- How deep `serde_json` follows a text. -/
def maxDepth : Nat := 127

/-- The value a text is; every round of the reader takes a character at least. -/
def read (text : Text) : Option Json := do
  let (value, rest) ← readValue (text.length + 1) maxDepth text
  if (skipSpaces rest).isEmpty then return value else none

example : (read "\x7b \"a\" : [1, -2, true], \"b\\n\": \"\\u00e9\\ud83d\\ude00\" \x7d".toList).bind
    (fun json => (json.get "b\n".toList).bind asStr) = some "é😀".toList := by decide +kernel

/-! ### Pieces of a text -/

/-- The text does not go on with a number in front of it. -/
def Stops (text : Text) : Prop :=
  NoDigit 10 text ∧ text.head? ≠ some '.' ∧ text.head? ≠ some 'e' ∧ text.head? ≠ some 'E'

theorem stops_cons {c : Char} {text : Text}
    (stop : toDigit 10 c = none ∧ c ≠ '.' ∧ c ≠ 'e' ∧ c ≠ 'E') : Stops (c :: text) := by
  obtain ⟨digit, point, small, large⟩ := stop
  exact ⟨noDigit_cons digit, by simpa using point, by simpa using small, by simpa using large⟩

/-- The reader finds the value at the front of every text that goes on after `enc`. -/
def Spells (depth : Nat) (enc : Text) (value : Json) : Prop :=
  ∀ fuel limit rest, enc.length < fuel → depth ≤ limit → Stops rest →
    readValue fuel limit (enc ++ rest) = some (value, rest)

theorem Spells.mono {depth deeper : Nat} {enc : Text} {value : Json}
    (spells : Spells depth enc value) (le : depth ≤ deeper) : Spells deeper enc value :=
  fun fuel limit rest enough inside => spells fuel limit rest enough (Nat.le_trans le inside)

theorem Spells.read {depth : Nat} {enc : Text} {value : Json} (spells : Spells depth enc value)
    (inside : depth ≤ maxDepth) : Json.read enc = some value := by
  have stops : Stops [] := ⟨noDigit_nil 10, by decide, by decide, by decide⟩
  have found := spells (enc.length + 1) maxDepth [] (Nat.lt_succ_self _) inside stops
  rw [List.append_nil] at found
  rw [Json.read, found]
  rfl

/-- A way to write the characters of a string, which the reader undoes. -/
structure Escaping where
  escape : Char → Text
  reads : ∀ c rest, readChar (escape c ++ rest) = some (c, rest)
  unquoted : ∀ c, (escape c).head? ≠ some '"'

namespace Escaping

variable (escaping : Escaping)

theorem exists_cons (c : Char) : ∃ d rest, escaping.escape c = d :: rest ∧ d ≠ '"' := by
  have reads := escaping.reads c []
  have unquoted := escaping.unquoted c
  cases shown : escaping.escape c with
  | nil =>
    rw [shown] at reads
    cases reads
  | cons d rest =>
    rw [shown] at unquoted
    exact ⟨d, rest, rfl, by simpa using unquoted⟩

theorem readChars (text rest : Text) {fuel : Nat}
    (enough : (text.flatMap escaping.escape).length < fuel) :
    readChars fuel (text.flatMap escaping.escape ++ '"' :: rest) = some (text, rest) := by
  induction text generalizing fuel with
  | nil =>
    obtain ⟨fuel, rfl⟩ := Nat.exists_eq_add_one_of_ne_zero (Nat.ne_of_gt enough)
    rfl
  | cons c text ih =>
    obtain ⟨fuel, rfl⟩ := Nat.exists_eq_add_one_of_ne_zero (Nat.ne_zero_of_lt enough)
    obtain ⟨d, more, shown, unquoted⟩ := escaping.exists_cons c
    have reads := escaping.reads c (text.flatMap escaping.escape ++ '"' :: rest)
    rw [shown, List.cons_append] at reads
    rw [List.flatMap_cons, shown, List.cons_append, List.length_cons, List.length_append] at enough
    rw [List.flatMap_cons, shown, List.append_assoc, List.cons_append, Json.readChars,
      if_neg unquoted, reads]
    have later := @ih fuel (by omega)
    simp [later]

/-- A string between its quotes. -/
def quote (text : Text) : Text := '"' :: (text.flatMap escaping.escape ++ ['"'])

theorem spells_quote (text : Text) : Spells 0 (escaping.quote text) (.string text) := by
  intro fuel limit rest enough _ _
  obtain ⟨fuel, rfl⟩ := Nat.exists_eq_add_one_of_ne_zero (Nat.ne_zero_of_lt enough)
  have within : (text.flatMap escaping.escape).length < fuel := by
    simp only [quote, List.length_cons, List.length_append] at enough
    omega
  have found := escaping.readChars text rest within
  simp [quote, readValue, skipSpaces, isSpace, found]

end Escaping

theorem spells_true : Spells 0 "true".toList (.bool true) := by
  intro fuel limit rest enough _ _
  obtain ⟨fuel, rfl⟩ := Nat.exists_eq_add_one_of_ne_zero (Nat.ne_zero_of_lt enough)
  simp [readValue, skipSpaces, isSpace, readWord]

/-- An integer as the reader has it. -/
def ofInt (n : Int) : Number :=
  if 0 ≤ n then .posInt (UInt64.ofNat n.toNat) else .negInt (Int64.ofInt n)

theorem readInteger_displayInt {n : Int} (low : -2 ^ 63 ≤ n) (high : n < 2 ^ 64) {rest : Text}
    (stops : Stops rest) : readInteger (displayInt n ++ rest) = some (ofInt n, rest) := by
  obtain ⟨noDigit, point, small, large⟩ := stops
  obtain ⟨digits, shown, value, some, leading⟩ :=
    @digits_toDigits 10 (by decide) (by decide) n.natAbs
  have read := readDigits_append shown noDigit
  obtain ⟨d, later, rfl⟩ := List.exists_cons_of_ne_nil some
  have noZero : ¬ (Option.some d = Option.some 0 ∧ 1 < (d :: later).length) :=
    fun zero => absurd (leading zero.1) (Nat.not_le_of_lt zero.2)
  have unsigned : (Nat.toDigits 10 n.natAbs ++ rest).head? ≠ Option.some '-' := by
    obtain ⟨c, cs, front⟩ := List.exists_cons_of_ne_nil (@Nat.toDigits_ne_nil n.natAbs 10)
    intro minus
    rw [front, List.cons_append, List.head?_cons] at minus
    have member : '-' ∈ Nat.toDigits 10 n.natAbs := by
      rw [front, Option.some.inj minus]
      exact List.mem_cons_self
    exact notMem_decimal (by decide) n.natAbs member
  rw [displayInt_eq]
  by_cases sign : 0 ≤ n
  · have abs : n.toNat = n.natAbs := by omega
    rw [if_pos sign, readInteger, ofInt, if_pos sign, abs]
    have fits : n.natAbs < 2 ^ 64 := by omega
    simp only [unsigned, if_false, read, List.head?_cons, value, noZero, point, small, large,
      or_self, Bool.false_eq_true, fits, if_true]
  · have abs : (-n).toNat = n.natAbs := by omega
    rw [if_neg sign, readInteger, ofInt, if_neg sign, abs]
    have fits : 0 < n.natAbs ∧ n.natAbs ≤ 2 ^ 63 := by omega
    have same : -(n.natAbs : Int) = n := by omega
    simp only [List.cons_append, List.head?_cons, List.tail_cons, if_true, read, value, noZero,
      point, small, large, or_self, if_false, fits, and_self, same]

theorem displayInt_first (n : Int) :
    ∃ c cs, displayInt n = c :: cs ∧ (c = '-' ∨ c.isDigit) := by
  rw [displayInt_eq]
  split
  · obtain ⟨c, cs, shown⟩ := List.exists_cons_of_ne_nil (@Nat.toDigits_ne_nil n.toNat 10)
    have member : c ∈ Nat.toDigits 10 n.toNat := by rw [shown]; exact List.mem_cons_self
    exact ⟨c, cs, shown, .inr (Nat.isDigit_of_mem_toDigits (by decide) (by decide) member)⟩
  · exact ⟨'-', _, rfl, .inl rfl⟩

theorem spells_int {n : Int} (low : -2 ^ 63 ≤ n) (high : n < 2 ^ 64) :
    Spells 0 (displayInt n) (.number (ofInt n)) := by
  intro fuel limit rest enough _ stops
  obtain ⟨fuel, rfl⟩ := Nat.exists_eq_add_one_of_ne_zero (Nat.ne_zero_of_lt enough)
  have found := readInteger_displayInt low high stops
  obtain ⟨c, cs, shown, first⟩ := displayInt_first n
  -- no other kind of value starts with a digit or a sign
  have apart (d : Char) (sign : d ≠ '-') (other : d.isDigit = false) : c ≠ d := by
    rintro rfl
    exact first.elim sign (by simp [other])
  have space : isSpace c = false := by
    simp [isSpace, apart ' ' (by decide) (by decide), apart '\n' (by decide) (by decide),
      apart '\r' (by decide) (by decide), apart '\t' (by decide) (by decide)]
  rw [shown, List.cons_append] at found ⊢
  rw [readValue, skipSpaces, List.dropWhile_cons_of_neg (by simp [space])]
  simp only [apart '"' (by decide) (by decide), apart '{' (by decide) (by decide),
    apart '[' (by decide) (by decide), apart 't' (by decide) (by decide),
    apart 'f' (by decide) (by decide), apart 'n' (by decide) (by decide), if_false, found,
    Option.map_some]

/-! ### Arrays and objects -/

/-- A text with the value it spells. -/
structure Spelled (depth : Nat) where
  enc : Text
  value : Json
  spells : Spells depth enc value

def Spelled.deeper {depth : Nat} (more : Nat) (self : Spelled depth) : Spelled (depth + more) :=
  ⟨self.enc, self.value, self.spells.mono (Nat.le_add_right depth more)⟩

@[simp] theorem Spelled.enc_deeper {depth : Nat} (more : Nat) (spelled : Spelled depth) :
    (spelled.deeper more).enc = spelled.enc := rfl

@[simp] theorem Spelled.value_deeper {depth : Nat} (more : Nat) (spelled : Spelled depth) :
    (spelled.deeper more).value = spelled.value := rfl

/-- Texts with commas between them. -/
def listed {α : Type} (enc : α → Text) (first : α) (rest : List α) : Text :=
  enc first ++ rest.flatMap fun item => ',' :: enc item

theorem listed_cons {α : Type} (enc : α → Text) (first second : α) (rest : List α) :
    listed enc first (second :: rest) = enc first ++ ',' :: listed enc second rest := by
  simp [listed]

theorem intercalate_eq_listed {α : Type} (enc : α → Text) (first : α) (rest : List α) :
    List.intercalate [','] ((first :: rest).map enc) = listed enc first rest := by
  induction rest generalizing first with
  | nil => simp [listed]
  | cons second rest ih =>
    rw [List.map_cons, List.map_cons, List.intercalate_cons_cons, ← List.map_cons, ih, listed_cons,
      List.append_assoc, List.singleton_append]

variable {depth : Nat}

theorem readItems_listed (first : Spelled depth) (rest : List (Spelled depth)) (tail : Text)
    {fuel limit : Nat} (enough : (listed Spelled.enc first rest).length + 1 < fuel)
    (inside : depth ≤ limit) :
    readItems fuel limit (listed Spelled.enc first rest ++ ']' :: tail) =
      some ((first :: rest).map Spelled.value, tail) := by
  induction rest generalizing first fuel with
  | nil =>
    obtain ⟨fuel, rfl⟩ := Nat.exists_eq_add_one_of_ne_zero (Nat.ne_zero_of_lt enough)
    simp only [listed, List.flatMap_nil, List.append_nil] at enough ⊢
    have found := first.spells fuel limit (']' :: tail) (by omega) inside (stops_cons (by decide))
    simp [readItems, found, skipSpaces, isSpace]
  | cons second rest ih =>
    obtain ⟨fuel, rfl⟩ := Nat.exists_eq_add_one_of_ne_zero (Nat.ne_zero_of_lt enough)
    rw [listed_cons, List.length_append, List.length_cons] at enough
    have later := @ih second fuel (by omega)
    have found := first.spells fuel limit (',' :: (listed Spelled.enc second rest ++ ']' :: tail))
      (by omega) inside (stops_cons (by decide))
    rw [listed_cons, List.append_assoc, List.cons_append]
    simp [readItems, found, skipSpaces, isSpace, later]

/-- No value starts with a closing bracket. -/
theorem readValue_first {fuel limit : Nat} {text : Text} {found : Json × Text}
    (read : readValue fuel limit text = some found) : (skipSpaces text).head? ≠ some ']' := by
  intro bracket
  cases fuel with
  | zero => cases read
  | succ fuel =>
    obtain ⟨rest, shown⟩ := List.head?_eq_some_iff.mp bracket
    have noDigit : toDigit 10 ']' = none := by decide
    simp [readValue, shown, readInteger, readDigits, noDigit] at read

theorem spells_array (first : Spelled depth) (rest : List (Spelled depth)) :
    Spells (depth + 1) ('[' :: (listed Spelled.enc first rest ++ [']']))
      (.array ((first :: rest).map Spelled.value)) := by
  intro fuel limit tail enough inside _
  obtain ⟨fuel, rfl⟩ := Nat.exists_eq_add_one_of_ne_zero (Nat.ne_zero_of_lt enough)
  obtain ⟨limit, rfl⟩ := Nat.exists_eq_add_one_of_ne_zero (Nat.ne_zero_of_lt inside)
  simp only [List.length_cons, List.length_append, List.length_nil] at enough
  have items := @readItems_listed depth first rest tail fuel limit (by omega) (by omega)
  have opened : (skipSpaces (listed Spelled.enc first rest ++ ']' :: tail)).head? ≠ some ']' := by
    cases fuel with
    | zero => cases items
    | succ fuel =>
      rw [readItems] at items
      obtain ⟨found, value, -⟩ := Option.bind_eq_some_iff.mp items
      exact readValue_first value
  have start : skipSpaces ('[' :: (listed Spelled.enc first rest ++ ']' :: tail)) =
      '[' :: (listed Spelled.enc first rest ++ ']' :: tail) := by
    simp [skipSpaces, isSpace]
  rw [List.cons_append, List.append_assoc, List.singleton_append, readValue, start]
  simp [opened, items]

/-- A member of an object as it is written. -/
def Escaping.member (escaping : Escaping) (entry : Text × Spelled depth) : Text :=
  escaping.quote entry.1 ++ ':' :: entry.2.enc

/-- A name without anything to escape stands in a member as it is. -/
theorem Escaping.member_eq (escaping : Escaping) {name : Text}
    (plain : name.flatMap escaping.escape = name) (value : Spelled depth) :
    escaping.member (name, value) = '"' :: (name ++ '"' :: ':' :: value.enc) := by
  simp [Escaping.member, Escaping.quote, plain]

/-- With fuel for all of a member, its name and its value are read. -/
theorem Escaping.reads_member (escaping : Escaping) (entry : Text × Spelled depth)
    {fuel limit : Nat} (room : (escaping.member entry).length < fuel) (inside : depth ≤ limit) :
    (∀ after, Json.readChars fuel (entry.1.flatMap escaping.escape ++ '"' :: after) =
      some (entry.1, after)) ∧
    ∀ after, Stops after →
      readValue fuel limit (entry.2.enc ++ after) = some (entry.2.value, after) := by
  simp only [Escaping.member, Escaping.quote, List.length_append, List.length_cons] at room
  exact ⟨fun after => escaping.readChars entry.1 after (by omega),
    fun after stops => entry.2.spells fuel limit after (by omega) inside stops⟩

theorem readMembers_listed (escaping : Escaping) (first : Text × Spelled depth)
    (rest : List (Text × Spelled depth)) (tail : Text) {fuel limit : Nat}
    (distinct : ((first :: rest).map Prod.fst).Nodup)
    (enough : (listed escaping.member first rest).length + 1 < fuel) (inside : depth ≤ limit) :
    readMembers fuel limit (listed escaping.member first rest ++ '}' :: tail) =
      some ((first :: rest).map fun entry => (entry.1, entry.2.value), tail) := by
  induction rest generalizing first fuel with
  | nil =>
    obtain ⟨fuel, rfl⟩ := Nat.exists_eq_add_one_of_ne_zero (Nat.ne_zero_of_lt enough)
    simp only [listed, List.flatMap_nil, List.append_nil] at enough ⊢
    obtain ⟨name, value⟩ := @Escaping.reads_member depth escaping first fuel limit (by omega) inside
    have last := value ('}' :: tail) (stops_cons (by decide))
    simp [Escaping.member, Escaping.quote, readMembers, skipSpaces, isSpace, name, last]
  | cons second rest ih =>
    obtain ⟨fuel, rfl⟩ := Nat.exists_eq_add_one_of_ne_zero (Nat.ne_zero_of_lt enough)
    rw [listed_cons, List.length_append, List.length_cons] at enough
    obtain ⟨fresh, distinct⟩ := List.nodup_cons.mp distinct
    have later := @ih second fuel distinct (by omega)
    obtain ⟨name, value⟩ := @Escaping.reads_member depth escaping first fuel limit (by omega) inside
    have next := value (',' :: (listed escaping.member second rest ++ '}' :: tail))
      (stops_cons (by decide))
    -- no name comes twice, which the reader would refuse
    have others : ((second :: rest).map fun entry => (entry.1, entry.2.value)).any
        (fun other => decide (other.1 = first.1)) = false := by
      rw [List.any_eq_false]
      rintro other member same
      obtain ⟨entry, inRest, rfl⟩ := List.mem_map.mp member
      exact fresh (of_decide_eq_true same ▸ List.mem_map_of_mem inRest)
    have front (after : Text) : escaping.member first ++ after =
        '"' :: (first.1.flatMap escaping.escape ++ '"' :: ':' :: (first.2.enc ++ after)) := by
      simp [Escaping.member, Escaping.quote]
    rw [listed_cons, List.append_assoc, List.cons_append, front, readMembers]
    simp only [skipSpaces, isSpace, Char.reduceEq, or_self, decide_false, Bool.false_eq_true,
      not_false_eq_true, List.dropWhile_cons_of_neg, name, next, later, Option.bind_eq_bind,
      Option.bind_some]
    rw [others]
    rfl

theorem spells_object (escaping : Escaping) (first : Text × Spelled depth)
    (rest : List (Text × Spelled depth)) (distinct : ((first :: rest).map Prod.fst).Nodup) :
    Spells (depth + 1) ('{' :: (listed escaping.member first rest ++ ['}']))
      (.object ((first :: rest).map fun entry => (entry.1, entry.2.value))) := by
  intro fuel limit tail enough inside _
  obtain ⟨fuel, rfl⟩ := Nat.exists_eq_add_one_of_ne_zero (Nat.ne_zero_of_lt enough)
  obtain ⟨limit, rfl⟩ := Nat.exists_eq_add_one_of_ne_zero (Nat.ne_zero_of_lt inside)
  simp only [List.length_cons, List.length_append, List.length_nil] at enough
  have members := @readMembers_listed depth escaping first rest tail fuel limit distinct (by omega)
    (by omega)
  have opened : (skipSpaces (listed escaping.member first rest ++ '}' :: tail)).head? ≠
      some '}' := by
    simp [listed, Escaping.member, Escaping.quote, skipSpaces, isSpace]
  have start : skipSpaces ('{' :: (listed escaping.member first rest ++ '}' :: tail)) =
      '{' :: (listed escaping.member first rest ++ '}' :: tail) := by
    simp [skipSpaces, isSpace]
  rw [List.cons_append, List.append_assoc, List.singleton_append, readValue, start]
  simp [opened, members]

/-! ### Members that may be missing -/

/-- A member that is written where there is a value. -/
def optionEntry {α : Type} (name : String) (spell : α → Spelled depth) :
    Option α → List (Text × Spelled depth)
  | none => []
  | some a => [(name.toList, spell a)]

theorem names_optionEntry {α : Type} (name : String) (spell : α → Spelled depth)
    (value : Option α) : ((optionEntry name spell value).map Prod.fst).Sublist [name.toList] := by
  cases value with
  | none => exact List.nil_sublist _
  | some a => exact List.Sublist.refl _

theorem flatMap_optionEntry {α : Type} (escaping : Escaping) {name : String}
    (plain : name.toList.flatMap escaping.escape = name.toList) (spell : α → Spelled depth)
    (value : Option α) :
    ((optionEntry name spell value).flatMap fun entry => ',' :: escaping.member entry) =
      (value.map fun a => ',' :: '"' :: (name.toList ++ '"' :: ':' :: (spell a).enc)).getD [] := by
  cases value with
  | none => rfl
  | some a => rw [optionEntry, List.flatMap_singleton, escaping.member_eq plain]; rfl

/-- The value of a name among members. -/
def valueOf (key : String) (entries : List (Text × Spelled depth)) : Option Json :=
  (object (entries.map fun entry => (entry.1, entry.2.value))).get key.toList

theorem valueOf_cons (key name : String) (value : Spelled depth)
    (entries : List (Text × Spelled depth)) :
    valueOf key ((name.toList, value) :: entries) =
      if name = key then some value.value else valueOf key entries := by
  rw [valueOf, List.map_cons, get, List.find?_cons]
  by_cases same : name = key <;> simp [same, String.toList_inj, valueOf, get]

theorem valueOf_append (key : String) (front back : List (Text × Spelled depth)) :
    valueOf key (front ++ back) = (valueOf key front).or (valueOf key back) := by
  rw [valueOf, List.map_append, get, List.find?_append, Option.map_or]
  rfl

theorem valueOf_optionEntry {α : Type} (key name : String) (spell : α → Spelled depth)
    (value : Option α) :
    valueOf key (optionEntry name spell value) =
      if name = key then value.map fun a => (spell a).value else none := by
  cases value with
  | none => exact (ite_self none).symm
  | some a => exact valueOf_cons key name (spell a) []

end Json

end MCGate.Api
