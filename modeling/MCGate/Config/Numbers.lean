import MCGate.Config.Loader
import MCGate.Config.SubstituteParams

/-!
# Numbers in the configuration

Durations and byte sizes are texts, all other numbers are YAML integers. A reader should
return exactly the number that is written or reject it. The product of a duration wraps
instead, a negative byte size is taken whatever its suffix is, a suffix that ends in `i` is
refused, and a YAML integer is cut down to 32 bits. On all other inputs each reader is exact.
-/
namespace MCGate.Config

open Yaml

/-! ### What a text says -/

/-- Digits, with or without a minus sign. -/
inductive SignedNumeral : Text → Int → Prop where
  | plain {digits : Text} : Numeral digits → SignedNumeral digits (numeralValue digits)
  | negated {digits : Text} : Numeral digits → SignedNumeral ('-' :: digits) (-numeralValue digits)

/-- The trimmed text is this amount and a suffix, which no digit or sign begins. -/
def Amount (value : Text) (n : Int) (suffix : Text) : Prop :=
  ∃ amount, SignedNumeral amount n ∧ trim value = amount ++ suffix ∧
    ∀ c, suffix.head? = some c → ¬ isAmountChar c

def durationUnits : List (Text × Int) :=
  [("ms".toList, 1), ("s".toList, 1000), ("m".toList, 60000), ("h".toList, 3600000),
    ("d".toList, 86400000)]

/-- The text is a duration of so many milliseconds. -/
def Lasts (value : Text) (millis : Int) : Prop :=
  ∃ n unit factor, Amount value n unit ∧ (unit, factor) ∈ durationUnits ∧ millis = n * factor

def sizeLetters : List (Text × Int) :=
  [([], 1), (['k'], 1024), (['m'], 1024 ^ 2), (['g'], 1024 ^ 3), (['t'], 1024 ^ 4),
    (['p'], 1024 ^ 5)]

/-- What may follow the letter and is ignored. -/
def sizeEndings : List Text := [[], ['i'], ['b'], ['i', 'b']]

/-- A suffix in lower case, with the power of 1024 it stands for. -/
def SizeSuffix (suffix : Text) (factor : Int) : Prop :=
  ∃ letter ending, suffix = letter ++ ending ∧ (letter, factor) ∈ sizeLetters ∧
    ending ∈ sizeEndings

/-- The text is a size of so many bytes; every negative size is `-1`. -/
def Sized (toLowercase : Text → Text) (value : Text) (bytes : Int) : Prop :=
  ∃ n suffix factor, Amount value n suffix ∧ SizeSuffix (toLowercase (trim suffix)) factor ∧
    bytes = if n < 0 then -1 else n * factor

/-- The result is the number that is meant if there is one, and an error otherwise. -/
def ExactOrRejected (result : Except LoadError Int64) (Means : Int → Prop) : Prop :=
  (∀ v, result = .ok v ↔ Means v.toInt) ∧ result ≠ .error .panicked

private theorem exactOrRejected_of_failed {result : Except LoadError Int64} {Means : Int → Prop}
    (rejected : failed result) (none : ∀ v : Int64, ¬ Means v.toInt) :
    ExactOrRejected result Means := by
  match result, rejected with
  | .error (.failed message), _ => exact ⟨fun v => iff_of_false nofun (none v), nofun⟩

private theorem exactOrRejected_ok {n : Int64} {Means : Int → Prop}
    (only : ∀ v : Int64, Means v.toInt ↔ v = n) : ExactOrRejected (.ok n) Means := by
  refine ⟨fun v => ?_, nofun⟩
  rw [only v, Except.ok.injEq, eq_comm]

/-! ### Amounts -/

private theorem isI64_iff {n : Int} : isI64 n ↔ -2 ^ 63 ≤ n ∧ n < 2 ^ 63 := by
  simp [isI64]

private theorem isI64_toInt (v : Int64) : isI64 v.toInt := isI64_iff.mpr ⟨v.le_toInt, v.toInt_lt⟩

private theorem toInt_ofInt_of_isI64 {n : Int} (fits : isI64 n) : (Int64.ofInt n).toInt = n := by
  obtain ⟨low, high⟩ := isI64_iff.mp fits
  exact Int64.toInt_ofInt_of_le low high

private theorem eq_ofInt_iff {n : Int} {v : Int64} (fits : isI64 n) :
    v.toInt = n ↔ v = Int64.ofInt n := by
  rw [← Int64.toInt_inj, toInt_ofInt_of_isI64 fits]

private theorem isAmountChar_of_digit {c : Char} (digit : (toDigit 10 c).isSome) :
    isAmountChar c := by
  rw [isSome_toDigit] at digit
  have isDigit : c.isDigit := by simpa [isAsciiDigit, Char.isDigit, Char.le_def] using digit
  rw [isAmountChar, isDigit, Bool.true_or]

theorem SignedNumeral.isAmountChar {text : Text} {n : Int} (spelled : SignedNumeral text n) :
    ∀ c ∈ text, isAmountChar c := by
  cases spelled with
  | plain numeral => exact fun c member => isAmountChar_of_digit (numeral.2 c member)
  | negated numeral =>
    intro c member
    rcases List.mem_cons.mp member with rfl | digit
    · rfl
    · exact isAmountChar_of_digit (numeral.2 c digit)

theorem SignedNumeral.unique {text : Text} {n m : Int} (first : SignedNumeral text n)
    (second : SignedNumeral text m) : n = m := by
  have unsigned {digits : Text} : ¬ Numeral ('-' :: digits) := fun numeral =>
    absurd (numeral.2 '-' List.mem_cons_self) (by decide)
  cases first with
  | plain numeral =>
    cases second with
    | plain _ => rfl
    | negated _ => exact absurd numeral unsigned
  | negated numeral =>
    cases second with
    | plain other => exact absurd other unsigned
    | negated _ => rfl

private theorem parseI64_of_signedNumeral {text : Text} {n : Int} (spelled : SignedNumeral text n) :
    parseI64 text = if isI64 n then some (Int64.ofInt n) else none := by
  cases spelled with
  | plain numeral =>
    obtain ⟨d, later, read, value⟩ := readDigits_numeral numeral
    have head := numeral.2
    cases text with
    | nil => exact absurd rfl numeral.1
    | cons c rest =>
      -- a numeral begins with neither of the signs that are stripped
      have notMinus : c ≠ '-' := by
        rintro rfl
        exact absurd (head '-' List.mem_cons_self) (by decide)
      have notPlus : c ≠ '+' := by
        rintro rfl
        exact absurd (head '+' List.mem_cons_self) (by decide)
      unfold parseI64
      simp [notMinus, notPlus, read, value]
  | @negated digits numeral =>
    obtain ⟨d, later, read, value⟩ := readDigits_numeral numeral
    unfold parseI64
    simp [read, value]

private theorem numeral_of_readDigits {text : Text} {d : Nat} {later : List Nat}
    (read : readDigits 10 text = (d :: later, [])) : Numeral text := by
  have all : (readDigits 10 text).2 = [] → ∀ c ∈ text, (toDigit 10 c).isSome := by
    clear read
    fun_induction readDigits 10 text with
    | case1 => simp
    | case2 c rest none => simp
    | case3 c rest n digit ih =>
      intro whole c' member
      rcases List.mem_cons.mp member with rfl | inRest
      · rw [digit, Option.isSome_some]
      · exact ih whole c' inRest
  refine ⟨?_, all (by rw [read])⟩
  rintro rfl
  simp [readDigits] at read

/-- Digits and signs that parse are a numeral, perhaps with a sign in front. -/
theorem signedNumeral_of_parseI64 {text : Text} {a : Int64} (all : ∀ c ∈ text, isAmountChar c)
    (parsed : parseI64 text = some a) : ∃ n, SignedNumeral text n := by
  -- `parse::<i64>` takes a plus sign, but the readers never hand it one
  have plus : '+' ∉ text := fun member => absurd (all '+' member) (by decide)
  unfold parseI64 at parsed
  dsimp only at parsed
  split at parsed
  next => cases parsed
  next digits nonempty read =>
    cases digits with
    | nil => exact absurd rfl nonempty
    | cons d later =>
      split at read
      next digits => exact ⟨_, .negated (numeral_of_readDigits read)⟩
      next => exact absurd List.mem_cons_self plus
      next => exact ⟨_, .plain (numeral_of_readDigits read)⟩
  next => cases parsed

namespace Amount

variable {value suffix : Text} {n : Int}

/-- The readers split a text where its amount ends, and read the amount if it fits. -/
theorem split (amount : Amount value n suffix) :
    SignedNumeral ((trim value).takeWhile isAmountChar) n ∧
      (trim value).dropWhile isAmountChar = suffix := by
  obtain ⟨text, spelled, whole, ends⟩ := amount
  rw [whole, List.takeWhile_append_of_pos spelled.isAmountChar,
    List.dropWhile_append_of_pos spelled.isAmountChar]
  cases suffix with
  | nil => exact ⟨by simpa using spelled, rfl⟩
  | cons c rest =>
    rw [List.takeWhile_cons_of_neg (ends c rfl), List.dropWhile_cons_of_neg (ends c rfl),
      List.append_nil]
    exact ⟨spelled, rfl⟩

theorem unique {m : Int} {other : Text} (first : Amount value n suffix)
    (second : Amount value m other) : n = m ∧ suffix = other :=
  ⟨first.split.1.unique second.split.1, first.split.2.symm.trans second.split.2⟩

private theorem parseI64_eq (amount : Amount value n suffix) :
    parseI64 ((trim value).takeWhile isAmountChar) =
      if isI64 n then some (Int64.ofInt n) else none :=
  parseI64_of_signedNumeral amount.split.1

end Amount

/-- What the readers take for an amount is one. -/
theorem amount_of_parseI64 {value : Text} {a : Int64}
    (parsed : parseI64 ((trim value).takeWhile isAmountChar) = some a) :
    ∃ n, Amount value n ((trim value).dropWhile isAmountChar) := by
  obtain ⟨n, spelled⟩ :=
    signedNumeral_of_parseI64 (fun c => List.mem_takeWhile_imp) parsed
  refine ⟨n, _, spelled, (List.takeWhile_append_dropWhile ..).symm, fun c first => ?_⟩
  have stops := List.head?_dropWhile_not isAmountChar (trim value)
  rw [first] at stops
  exact Bool.eq_false_iff.mp stops

/-- The amount that a reader has parsed, with its bound. -/
theorem Amount.of_parseI64 {value : Text} {a : Int64}
    (parsed : parseI64 ((trim value).takeWhile isAmountChar) = some a) :
    ∃ n, Amount value n ((trim value).dropWhile isAmountChar) ∧ isI64 n ∧ a = Int64.ofInt n := by
  obtain ⟨n, amount⟩ := amount_of_parseI64 parsed
  rw [amount.parseI64_eq, Option.ite_none_right_eq_some] at parsed
  exact ⟨n, amount, parsed.1, (Option.some.inj parsed.2).symm⟩

/-! ### Durations -/

private theorem one_le_of_mem_durationUnits {unit : Text} {factor : Int}
    (known : (unit, factor) ∈ durationUnits) : 1 ≤ factor := by
  have all : ∀ entry ∈ durationUnits, 1 ≤ entry.2 := by decide
  exact all _ known

private theorem durationUnits_unique {unit : Text} {factor factor' : Int}
    (first : (unit, factor) ∈ durationUnits) (second : (unit, factor') ∈ durationUnits) :
    factor = factor' := by
  have all : ∀ one ∈ durationUnits, ∀ two ∈ durationUnits, one.1 = two.1 → one.2 = two.2 := by
    decide
  exact all _ first _ second rfl

/-- A product that fits has an amount that fits. -/
theorem isI64_of_mul {n factor : Int} (positive : 1 ≤ factor) (fits : isI64 (n * factor)) :
    isI64 n := by
  obtain ⟨low, high⟩ := isI64_iff.mp fits
  have larger : n * factor = n + n * (factor - 1) := by rw [Int.mul_sub, Int.mul_one]; omega
  have rest : 0 ≤ factor - 1 := by omega
  rw [larger] at low high
  refine isI64_iff.mpr ?_
  rcases Int.le_total 0 n with above | below
  · have more := Int.mul_nonneg above rest
    omega
  · have less := Int.mul_nonpos_of_nonpos_of_nonneg below rest
    omega

private theorem parseDurationMillis_ok {value unit : Text} {n factor : Int}
    (amount : Amount value n unit) (known : (unit, factor) ∈ durationUnits) (fits : isI64 n) :
    parseDurationMillis value = .ok (Int64.ofInt (n * factor)) := by
  have parsed := amount.parseI64_eq
  rw [if_pos fits] at parsed
  unfold parseDurationMillis
  dsimp only
  rw [amount.split.2, parsed, Int64.ofInt_mul]
  simp only [durationUnits, List.mem_cons, List.not_mem_nil, or_false, Prod.mk.injEq] at known
  rcases known with ⟨rfl, rfl⟩ | ⟨rfl, rfl⟩ | ⟨rfl, rfl⟩ | ⟨rfl, rfl⟩ | ⟨rfl, rfl⟩
  · rw [show Int64.ofInt 1 = 1 from rfl, Int64.mul_one]
    rfl
  all_goals rfl

private theorem parseDurationMillis_failed {value : Text}
    (none : ¬ ∃ n unit factor, Amount value n unit ∧ (unit, factor) ∈ durationUnits ∧ isI64 n) :
    failed (parseDurationMillis value) := by
  unfold parseDurationMillis
  dsimp only
  split
  · rfl
  · split
    next => rfl
    next a parsed =>
      obtain ⟨n, amount, fits, -⟩ := Amount.of_parseI64 parsed
      have unknown (factor : Int) :
          ((trim value).dropWhile isAmountChar, factor) ∉ durationUnits :=
        fun known => none ⟨n, _, factor, amount, known, fits⟩
      have ms := unknown 1
      have s := unknown 1000
      have m := unknown 60000
      have h := unknown 3600000
      have d := unknown 86400000
      simp only [durationUnits, List.mem_cons, Prod.mk.injEq, not_or, and_true] at ms s m h d
      rw [if_neg ms.1, if_neg s.2.1, if_neg m.2.2.1, if_neg h.2.2.2.1, if_neg d.2.2.2.2.1]
      rfl

/-- The product of the amount and the unit fits whenever the amount does. -/
def DurationFits (value : Text) : Prop :=
  ∀ n unit factor, Amount value n unit → (unit, factor) ∈ durationUnits → isI64 n →
    isI64 (n * factor)

/-- A duration is wrong exactly if its amount fits into 64 bits and its milliseconds do not. -/
theorem duration_exact_iff (value : Text) :
    ExactOrRejected (parseDurationMillis value) (Lasts value) ↔ DurationFits value := by
  constructor
  · -- what is returned is an `i64`, so it is the product only if that is one
    rintro ⟨returned, -⟩ n unit factor amount known fits
    obtain ⟨m, unit', factor', amount', known', means⟩ :=
      (returned _).mp (parseDurationMillis_ok amount known fits)
    obtain ⟨rfl, rfl⟩ := amount.unique amount'
    rw [durationUnits_unique known known', ← means]
    exact isI64_toInt _
  · intro product
    by_cases readable : ∃ n unit factor,
        Amount value n unit ∧ (unit, factor) ∈ durationUnits ∧ isI64 n
    · obtain ⟨n, unit, factor, amount, known, fits⟩ := readable
      rw [parseDurationMillis_ok amount known fits]
      apply exactOrRejected_ok
      intro v
      rw [← eq_ofInt_iff (product n unit factor amount known fits)]
      constructor
      · rintro ⟨m, unit', factor', amount', known', means⟩
        obtain ⟨rfl, rfl⟩ := amount.unique amount'
        rw [means, durationUnits_unique known' known]
      · exact fun means => ⟨n, unit, factor, amount, known, means⟩
    · apply exactOrRejected_of_failed (parseDurationMillis_failed readable)
      -- what does not fit as an amount does not fit in milliseconds either
      rintro v ⟨n, unit, factor, amount, known, means⟩
      have fits : isI64 (n * factor) := means ▸ isI64_toInt v
      exact readable
        ⟨n, unit, factor, amount, known, isI64_of_mul (one_le_of_mem_durationUnits known) fits⟩

/-! ### Byte sizes -/

private theorem one_le_of_mem_sizeLetters {letter : Text} {factor : Int}
    (known : (letter, factor) ∈ sizeLetters) : 1 ≤ factor := by
  have all : ∀ entry ∈ sizeLetters, 1 ≤ entry.2 := by decide
  exact all _ known

/-- A suffix stands for one power of 1024. -/
theorem SizeSuffix.unique {suffix : Text} {factor factor' : Int} (first : SizeSuffix suffix factor)
    (second : SizeSuffix suffix factor') : factor = factor' := by
  have all : ∀ one ∈ sizeLetters, ∀ two ∈ sizeLetters, ∀ ending ∈ sizeEndings,
      ∀ ending' ∈ sizeEndings, one.1 ++ ending = two.1 ++ ending' → one.2 = two.2 := by
    decide
  obtain ⟨letter, ending, whole, known, ends⟩ := first
  obtain ⟨letter', ending', whole', known', ends'⟩ := second
  exact all _ known _ known' _ ends _ ends' (whole.symm.trans whole')

/-- The reader strips an ending, except for a bare `i`. -/
theorem byteFactor_stripped {letter ending : Text} {factor : Int}
    (known : (letter, factor) ∈ sizeLetters) (ends : ending ∈ sizeEndings) :
    byteFactor (stripByteSuffix (letter ++ ending)) =
      if ending = ['i'] then none else some factor := by
  have all : ∀ entry ∈ sizeLetters, ∀ ending ∈ sizeEndings,
      byteFactor (stripByteSuffix (entry.1 ++ ending)) =
        if ending = ['i'] then none else some entry.2 := by
    decide
  exact all _ known _ ends

private theorem mem_sizeLetters_of_byteFactor {letter : Text} {factor : Int}
    (known : byteFactor letter = some factor) : (letter, factor) ∈ sizeLetters := by
  unfold byteFactor at known
  split_ifs at known with bytes k m g t p <;> cases known <;> subst_vars <;> decide

private theorem eq_strip_append (unit : Text) :
    ∃ ending ∈ sizeEndings, unit = stripByteSuffix unit ++ ending := by
  unfold stripByteSuffix
  split_ifs with ib b
  · obtain ⟨front, rfl⟩ := List.isSuffixOf_iff_suffix.mp ib
    exact ⟨['i', 'b'], by decide, by simp⟩
  · obtain ⟨front, rfl⟩ := List.isSuffixOf_iff_suffix.mp b
    exact ⟨['b'], by decide, by simp⟩
  · exact ⟨[], by decide, (List.append_nil unit).symm⟩

/-- Every suffix that the reader knows is one. -/
theorem sizeSuffix_of_byteFactor {suffix : Text} {factor : Int}
    (known : byteFactor (stripByteSuffix suffix) = some factor) : SizeSuffix suffix factor := by
  obtain ⟨ending, ends, whole⟩ := eq_strip_append suffix
  exact ⟨_, ending, whole, mem_sizeLetters_of_byteFactor known, ends⟩

/-- What the reader makes of an amount that fits. -/
theorem parseByteSize_of_amount {toLowercase : Text → Text} {value suffix : Text} {n : Int}
    (amount : Amount value n suffix) (fits : isI64 n) :
    parseByteSize toLowercase value =
      if n < 0 then .ok (-1)
      else match byteFactor (stripByteSuffix (toLowercase (trim suffix))) with
        | none => bail ("invalid byte size unit: " ++ String.ofList value)
        | some factor =>
          if isI64 (n * factor) then .ok (Int64.ofInt (n * factor))
          else bail ("byte size out of range: " ++ String.ofList value) := by
  have parsed := amount.parseI64_eq
  rw [if_pos fits] at parsed
  have some : ¬ (((trim value).takeWhile isAmountChar).isEmpty ∨
      (trim value).takeWhile isAmountChar = ['-']) := by
    rintro (empty | sign)
    · rw [List.isEmpty_iff.mp empty] at parsed
      cases parsed
    · rw [sign] at parsed
      cases parsed
  have negative : Int64.ofInt n < 0 ↔ n < 0 := by
    rw [Int64.lt_iff_toInt_lt, toInt_ofInt_of_isI64 fits]
    rfl
  unfold parseByteSize
  dsimp only
  rw [if_neg some, parsed, amount.split.2]
  dsimp only
  rw [toInt_ofInt_of_isI64 fits]
  exact if_congr negative rfl rfl

private theorem parseByteSize_failed {toLowercase : Text → Text} {value : Text}
    (none : ∀ n suffix, Amount value n suffix → ¬ isI64 n) :
    failed (parseByteSize toLowercase value) := by
  unfold parseByteSize
  dsimp only
  split
  · rfl
  · split
    next => rfl
    next a parsed =>
      obtain ⟨n, amount, fits, -⟩ := Amount.of_parseI64 parsed
      exact absurd fits (none n _ amount)

/-- A negative amount fits exactly if its suffix is one, and no other size that fits is written
with a bare `i`. -/
def SizeReadable (toLowercase : Text → Text) (value : Text) : Prop :=
  ∀ n suffix, Amount value n suffix →
    (n < 0 → (isI64 n ↔ ∃ factor, SizeSuffix (toLowercase (trim suffix)) factor)) ∧
    (0 ≤ n → ∀ letter factor, (letter, factor) ∈ sizeLetters →
      toLowercase (trim suffix) = letter ++ ['i'] → ¬ isI64 (n * factor))

section

variable {toLowercase : Text → Text} {value suffix : Text} {n : Int}

private theorem Amount.sized_iff (amount : Amount value n suffix) (bytes : Int) :
    Sized toLowercase value bytes ↔
      ∃ factor, SizeSuffix (toLowercase (trim suffix)) factor ∧
        bytes = if n < 0 then -1 else n * factor := by
  constructor
  · rintro ⟨m, other, factor, amount', suffixed, means⟩
    obtain ⟨rfl, rfl⟩ := amount.unique amount'
    exact ⟨factor, suffixed, means⟩
  · rintro ⟨factor, suffixed, means⟩
    exact ⟨n, suffix, factor, amount, suffixed, means⟩

private theorem SizeSuffix.one_le {factor : Int} (suffixed : SizeSuffix suffix factor) :
    1 ≤ factor := by
  obtain ⟨letter, ending, -, known, -⟩ := suffixed
  exact one_le_of_mem_sizeLetters known

/-- A negative amount is read as `-1` if it fits, whatever follows it. -/
theorem negative_exact_iff (amount : Amount value n suffix) (negative : n < 0) :
    ExactOrRejected (parseByteSize toLowercase value) (Sized toLowercase value) ↔
      (isI64 n ↔ ∃ factor, SizeSuffix (toLowercase (trim suffix)) factor) := by
  have means (v : Int64) : Sized toLowercase value v.toInt ↔
      (∃ factor, SizeSuffix (toLowercase (trim suffix)) factor) ∧ v = -1 := by
    rw [amount.sized_iff]
    simp only [if_pos negative]
    have same : v.toInt = -1 ↔ v = -1 := eq_ofInt_iff (n := -1) (by decide)
    rw [same, exists_and_right]
  by_cases fits : isI64 n
  · -- `-1` is returned before the suffix is looked at
    rw [parseByteSize_of_amount amount fits, if_pos negative, iff_true_left fits]
    constructor
    · exact fun good => ((means _).mp ((good.1 (-1)).mp rfl)).1
    · intro suffixed
      exact exactOrRejected_ok fun v => by rw [means, and_iff_right suffixed]
  · have rejected : failed (parseByteSize toLowercase value) :=
      parseByteSize_failed fun m other amount' => (amount.unique amount').1 ▸ fits
    rw [iff_false_left fits]
    constructor
    · intro good suffixed
      have returned := (good.1 (-1)).mpr ((means _).mpr ⟨suffixed, rfl⟩)
      rw [returned] at rejected
      cases rejected
    · intro unknown
      exact exactOrRejected_of_failed rejected fun v sized => unknown ((means v).mp sized).1

private theorem Amount.natural_sized_iff (amount : Amount value n suffix) (natural : 0 ≤ n)
    (bytes : Int) :
    Sized toLowercase value bytes ↔
      ∃ factor, SizeSuffix (toLowercase (trim suffix)) factor ∧ bytes = n * factor := by
  rw [amount.sized_iff]
  simp only [if_neg (Int.not_lt.mpr natural)]

/-- A size with a bare `i` is always rejected. -/
theorem bare_exact_iff (amount : Amount value n suffix) (natural : 0 ≤ n) (fits : isI64 n)
    {letter : Text} {factor : Int} (known : (letter, factor) ∈ sizeLetters)
    (bare : toLowercase (trim suffix) = letter ++ ['i']) :
    ExactOrRejected (parseByteSize toLowercase value) (Sized toLowercase value) ↔
      ¬ isI64 (n * factor) := by
  have suffixed : SizeSuffix (toLowercase (trim suffix)) factor :=
    ⟨letter, ['i'], bare, known, by decide⟩
  rw [parseByteSize_of_amount amount fits, if_neg (Int.not_lt.mpr natural), bare,
    byteFactor_stripped known (by decide), if_pos rfl]
  constructor
  · intro good product
    have returned := (good.1 (Int64.ofInt (n * factor))).mpr
      ((amount.natural_sized_iff natural _).mpr
        ⟨factor, suffixed, toInt_ofInt_of_isI64 product⟩)
    cases returned
  · intro large
    refine exactOrRejected_of_failed rfl fun v sized => ?_
    obtain ⟨factor', suffixed', product⟩ := (amount.natural_sized_iff natural _).mp sized
    rw [suffixed'.unique suffixed] at product
    exact large (product ▸ isI64_toInt v)

/-- Every other suffix is read as what it stands for, or refused with good reason. -/
theorem suffixed_exact (amount : Amount value n suffix) (natural : 0 ≤ n) (fits : isI64 n)
    (notBare : ∀ letter factor, (letter, factor) ∈ sizeLetters →
      toLowercase (trim suffix) ≠ letter ++ ['i']) :
    ExactOrRejected (parseByteSize toLowercase value) (Sized toLowercase value) := by
  rw [parseByteSize_of_amount amount fits, if_neg (Int.not_lt.mpr natural)]
  cases read : byteFactor (stripByteSuffix (toLowercase (trim suffix))) with
  | none =>
    refine exactOrRejected_of_failed rfl fun v sized => ?_
    obtain ⟨factor, ⟨letter, ending, whole, known, ends⟩, -⟩ :=
      (amount.natural_sized_iff natural _).mp sized
    -- every other ending is stripped, and what is left is a letter
    have other : ending ≠ ['i'] := fun same => notBare letter factor known (same ▸ whole)
    rw [whole, byteFactor_stripped known ends, if_neg other] at read
    cases read
  | some factor =>
    have suffixed := sizeSuffix_of_byteFactor read
    have means (v : Int64) : Sized toLowercase value v.toInt ↔ v.toInt = n * factor := by
      rw [amount.natural_sized_iff natural]
      constructor
      · rintro ⟨factor', suffixed', same⟩
        rw [same, suffixed'.unique suffixed]
      · exact fun same => ⟨factor, suffixed, same⟩
    dsimp only
    split
    next product => exact exactOrRejected_ok fun v => by rw [means, eq_ofInt_iff product]
    next product =>
      refine exactOrRejected_of_failed rfl fun v sized => ?_
      exact product ((means v).mp sized ▸ isI64_toInt v)

/-- An amount that is not negative is read exactly unless a bare `i` follows it. -/
theorem natural_exact_iff (amount : Amount value n suffix) (natural : 0 ≤ n) :
    ExactOrRejected (parseByteSize toLowercase value) (Sized toLowercase value) ↔
      ∀ letter factor, (letter, factor) ∈ sizeLetters →
        toLowercase (trim suffix) = letter ++ ['i'] → ¬ isI64 (n * factor) := by
  by_cases fits : isI64 n
  · by_cases bare : ∃ letter factor, (letter, factor) ∈ sizeLetters ∧
        toLowercase (trim suffix) = letter ++ ['i']
    · obtain ⟨letter, factor, known, whole⟩ := bare
      rw [bare_exact_iff amount natural fits known whole]
      constructor
      · intro large letter' factor' known' whole'
        have same : SizeSuffix (letter ++ ['i']) factor' :=
          ⟨letter', ['i'], whole.symm.trans whole', known', by decide⟩
        have suffixed : SizeSuffix (letter ++ ['i']) factor :=
          ⟨letter, ['i'], rfl, known, by decide⟩
        rw [same.unique suffixed]
        exact large
      · exact fun large => large letter factor known whole
    · have notBare (letter : Text) (factor : Int) (known : (letter, factor) ∈ sizeLetters) :
          toLowercase (trim suffix) ≠ letter ++ ['i'] :=
        fun whole => bare ⟨letter, factor, known, whole⟩
      exact iff_of_true (suffixed_exact amount natural fits notBare)
        fun letter factor known whole => absurd whole (notBare letter factor known)
  · -- an amount that does not fit is rejected, and no product of it fits
    refine iff_of_true ?_ fun letter factor known _ product =>
      fits (isI64_of_mul (one_le_of_mem_sizeLetters known) product)
    apply exactOrRejected_of_failed
    · exact parseByteSize_failed fun m other amount' => (amount.unique amount').1 ▸ fits
    · intro v sized
      obtain ⟨factor, suffixed, same⟩ := (amount.natural_sized_iff natural _).mp sized
      exact fits (isI64_of_mul suffixed.one_le (same ▸ isI64_toInt v))

end

/-- Which byte sizes are read exactly or rejected. -/
theorem size_exact_iff (toLowercase : Text → Text) (value : Text) :
    ExactOrRejected (parseByteSize toLowercase value) (Sized toLowercase value) ↔
      SizeReadable toLowercase value := by
  by_cases whole : ∃ n suffix, Amount value n suffix
  · obtain ⟨n, suffix, amount⟩ := whole
    have only : SizeReadable toLowercase value ↔
        (n < 0 → (isI64 n ↔ ∃ factor, SizeSuffix (toLowercase (trim suffix)) factor)) ∧
        (0 ≤ n → ∀ letter factor, (letter, factor) ∈ sizeLetters →
          toLowercase (trim suffix) = letter ++ ['i'] → ¬ isI64 (n * factor)) := by
      constructor
      · exact fun readable => readable n suffix amount
      · intro readable m other amount'
        obtain ⟨rfl, rfl⟩ := amount.unique amount'
        exact readable
    rw [only]
    by_cases negative : n < 0
    · rw [negative_exact_iff amount negative, imp_iff_right negative, and_iff_left]
      exact fun natural => absurd negative (Int.not_lt.mpr natural)
    · have natural := Int.not_lt.mp negative
      rw [natural_exact_iff amount natural, imp_iff_right natural, and_iff_right]
      exact fun below => absurd below negative
  · have none (n : Int) (suffix : Text) : ¬ Amount value n suffix := fun amount =>
      whole ⟨n, suffix, amount⟩
    refine iff_of_true ?_ fun n suffix amount => absurd amount (none n suffix)
    apply exactOrRejected_of_failed
    · exact parseByteSize_failed fun n suffix amount => absurd amount (none n suffix)
    · rintro v ⟨n, suffix, factor, amount, -⟩
      exact none n suffix amount

/-! ### YAML integers -/

/-- The integer that a value is, also under a tag. -/
def writtenInt (value : Value) : Option Int :=
  match value.untag with
  | .number (.posInt n) => some n.toNat
  | .number (.negInt n) => some n.toInt
  | _ => none

def isI32 (n : Int) : Bool := -2 ^ 31 ≤ n ∧ n < 2 ^ 31

/-- An option that is read with `get_i32`: the mappings it stands in, its key, and where the
result is stored. -/
structure IntOption (α : Type) where
  sections : List String
  key : String
  stored : α → Option Int32

def inSections : List String → Mapping → Option Mapping
  | [], map => some map
  | name :: rest, map => (getMap map name).bind (inSections rest)

namespace IntOption

variable {α : Type}

/-- The value that stands in the option's place, of whatever kind. -/
def written (option : IntOption α) (map : Mapping) : Option Value :=
  (inSections option.sections map).bind fun inner => inner.get option.key.toList

/-- A value that is written is an integer, and is stored. -/
def Exact (option : IntOption α) (map : Mapping) (loaded : α) : Prop :=
  ∀ value, option.written map = some value →
    ∃ n, writtenInt value = some n ∧ (option.stored loaded).map Int32.toInt = some n

/-- A value that is written is an integer of at most 32 bits. -/
def fits (option : IntOption α) (map : Mapping) : Bool :=
  (option.written map).all fun value => (writtenInt value).any isI32

/-- The option is read with `get_i32` and a default. -/
def Reads (option : IntOption α) (map : Mapping) (loaded : α) : Prop :=
  ∀ inner, inSections option.sections map = some inner →
    ∃ default, option.stored loaded = some ((getI32 inner option.key).getD default)

end IntOption

/-- The options of the file that `get_i32` reads, those of the routes apart. -/
def settingOptions : List (IntOption GateConfig) :=
  [⟨[], "workerThreads", fun c => some c.workerThreads⟩,
    ⟨[], "maxConnectionsPerIp", fun c => some c.maxConnectionsPerIp⟩,
    ⟨[], "soBacklog", fun c => some c.soBacklog⟩,
    ⟨[], "maxHeldReconnectSessions", fun c => some c.maxHeldReconnectSessions⟩,
    ⟨["autoBan"], "maxViolations", fun c => some c.autoBan.maxViolations⟩,
    ⟨["udpThrottle"], "maxSessions", fun c => some c.udpThrottle.maxSessions⟩,
    ⟨["udpThrottle"], "maxSessionsPerIp", fun c => some c.udpThrottle.maxSessionsPerIp⟩,
    ⟨["udpThrottle"], "pendingPacketsPerSession",
      fun c => some c.udpThrottle.pendingPacketsPerSession⟩,
    ⟨["connectionThrottle"], "maxConnections", fun c => some c.connectionThrottle.maxConnections⟩,
    ⟨["connectionThrottle"], "maxPerIpPerWindow",
      fun c => some c.connectionThrottle.maxPerIpPerWindow⟩,
    ⟨["api"], "playersPageLimit", fun c => some c.api.playersPageLimit⟩,
    ⟨["connectionTracking"], "retentionDays", fun c => some c.connectionTracking.retentionDays⟩,
    ⟨["connectionTracking"], "maxRecords", fun c => some c.connectionTracking.maxRecords⟩,
    ⟨["connectionTracking"], "queueCapacity", fun c => some c.connectionTracking.queueCapacity⟩,
    ⟨["connectionTracking"], "batchSize", fun c => some c.connectionTracking.batchSize⟩,
    ⟨["statsLogging"], "retentionDays", fun c => some c.statsLogging.retentionDays⟩,
    ⟨["statsLogging"], "maxRecords", fun c => some c.statsLogging.maxRecords⟩]

/-- The options of a route that `get_i32` reads. -/
def routeOptions : List (IntOption Route) :=
  [⟨[], "priority", fun r => some r.priority⟩,
    ⟨["fallback", "version"], "protocol", fun r => r.fallback.map fun f => f.version.protocol⟩,
    ⟨["fallback", "players"], "online",
      fun r => (r.fallback.bind FallbackStatus.players).map PlayersInfo.online⟩,
    ⟨["fallback", "players"], "max",
      fun r => (r.fallback.bind FallbackStatus.players).map PlayersInfo.max⟩]

private theorem isI32_iff {n : Int} : isI32 n ↔ -2 ^ 31 ≤ n ∧ n < 2 ^ 31 := by
  simp [isI32]

private theorem isI32_toInt (v : Int32) : isI32 v.toInt := isI32_iff.mpr ⟨v.le_toInt, v.toInt_lt⟩

/-- The cast keeps a number that fits. -/
theorem toInt_toInt32_of_isI32 {n : Int64} (fits : isI32 n.toInt) : n.toInt32.toInt = n.toInt := by
  obtain ⟨low, high⟩ := isI32_iff.mp fits
  rw [Int64.toInt_toInt32]
  exact Int.bmod_eq_of_le_mul_two (by omega) (by omega)

/-- The accessor and the cast keep an integer that fits. -/
theorem asI32_of_isI32 {value : Value} {n : Int} (default : Int32)
    (written : writtenInt value = some n) (fits : isI32 n) :
    ((value.asI64.map Int64.toInt32).getD default).toInt = n := by
  unfold writtenInt at written
  unfold Value.asI64
  split at written
  next k plain =>
    obtain rfl := Option.some.inj written
    obtain ⟨-, high⟩ := isI32_iff.mp fits
    have small : k.toNat < 2 ^ 63 := by omega
    have same := Int64.toInt_ofNat_of_lt small
    rw [← same] at fits
    simp only [plain, Number.asI64, if_pos small, Option.map_some, Option.getD_some]
    rw [toInt_toInt32_of_isI32 fits, same]
  next k plain =>
    obtain rfl := Option.some.inj written
    simp only [plain, Number.asI64, Option.map_some, Option.getD_some]
    exact toInt_toInt32_of_isI32 fits
  next => cases written

/-- What is read with `get_i32` is exact exactly if it fits: nothing else can be stored. -/
theorem IntOption.exact_iff_fits {α : Type} {option : IntOption α} {map : Mapping} {loaded : α}
    (reads : option.Reads map loaded) : option.Exact map loaded ↔ option.fits map := by
  rw [fits, Exact]
  cases set : option.written map with
  | none => simp
  | some value =>
    rw [Option.all_some]
    constructor
    · intro exact_
      obtain ⟨n, isInt, stored⟩ := exact_ value rfl
      -- whatever is stored, it is an `i32`
      obtain ⟨s, -, same⟩ := Option.map_eq_some_iff.mp stored
      rw [isInt, Option.any_some, ← same]
      exact isI32_toInt s
    · intro small _ same
      obtain rfl := Option.some.inj same
      obtain ⟨n, isInt, fit⟩ := (Option.any_eq_true _ _).mp small
      obtain ⟨inner, sections, entry⟩ := Option.bind_eq_some_iff.mp set
      obtain ⟨default, stored⟩ := reads inner sections
      have read : getI32 inner option.key = value.asI64.map Int64.toInt32 := by
        rw [getI32, getI64, entry, Option.bind_some]
      refine ⟨n, isInt, ?_⟩
      rw [stored, read, Option.map_some, asI32_of_isI32 default isInt fit]

/-! ### Where the integers are stored -/

namespace IntOption

variable {α : Type} {map : Mapping} {loaded : α} {key : String} {stored : α → Option Int32}

theorem Reads.top {default : Int32} (read : stored loaded = some ((getI32 map key).getD default)) :
    (IntOption.mk [] key stored).Reads map loaded := by
  rintro inner ⟨⟩
  exact ⟨default, read⟩

theorem Reads.under {name : String} (default : Int32)
    (read : ∀ inner, getMap map name = some inner →
      stored loaded = some ((getI32 inner key).getD default)) :
    (IntOption.mk [name] key stored).Reads map loaded := by
  intro inner isInner
  obtain ⟨_, found, same⟩ := Option.bind_eq_some_iff.mp isInner
  obtain rfl := Option.some.inj same
  exact ⟨default, read _ found⟩

end IntOption

section

variable {c : Mapping}

private theorem parseAutoBan_some {read : AutoBanConfig} (ok : parseAutoBan (some c) = .ok read) :
    read.maxViolations = (getI32 c "maxViolations").getD 10 := by
  obtain ⟨_, -, ok⟩ := bind_eq_ok.mp ok
  obtain ⟨_, -, ok⟩ := bind_eq_ok.mp ok
  cases ok
  rfl

private theorem parseUdpThrottle_some {read : UdpThrottleConfig}
    (ok : parseUdpThrottle (some c) = .ok read) :
    read.maxSessions = (getI32 c "maxSessions").getD 8192 ∧
      read.maxSessionsPerIp = (getI32 c "maxSessionsPerIp").getD 64 ∧
      read.pendingPacketsPerSession = (getI32 c "pendingPacketsPerSession").getD 256 := by
  obtain ⟨_, -, ok⟩ := bind_eq_ok.mp ok
  obtain ⟨_, -, ok⟩ := bind_eq_ok.mp ok
  cases ok
  exact ⟨rfl, rfl, rfl⟩

private theorem parseConnectionThrottle_some {read : ConnectionThrottleConfig}
    (ok : parseConnectionThrottle (some c) = .ok read) :
    read.maxConnections = (getI32 c "maxConnections").getD 0 ∧
      read.maxPerIpPerWindow = (getI32 c "maxPerIpPerWindow").getD 8 := by
  obtain ⟨_, -, ok⟩ := bind_eq_ok.mp ok
  cases ok
  exact ⟨rfl, rfl⟩

private theorem parseConnectionTracking_some {read : ConnectionTrackingConfig}
    (ok : parseConnectionTracking (some c) = .ok read) :
    read.retentionDays = (getI32 c "retentionDays").getD 30 ∧
      read.maxRecords = (getI32 c "maxRecords").getD 200000 ∧
      read.queueCapacity = (getI32 c "queueCapacity").getD 5000 ∧
      read.batchSize = (getI32 c "batchSize").getD 200 := by
  obtain ⟨_, -, ok⟩ := bind_eq_ok.mp ok
  obtain ⟨_, -, ok⟩ := bind_eq_ok.mp ok
  cases ok
  exact ⟨rfl, rfl, rfl, rfl⟩

private theorem parseStatsLogging_some {read : StatsLoggingConfig}
    (ok : parseStatsLogging (some c) = .ok read) :
    read.retentionDays = (getI32 c "retentionDays").getD 14 ∧
      read.maxRecords = (getI32 c "maxRecords").getD 50000 := by
  obtain ⟨_, -, ok⟩ := bind_eq_ok.mp ok
  cases ok
  exact ⟨rfl, rfl⟩

end

/-- Every option of the file is read with `get_i32`. -/
theorem settingOptions_read {config : Mapping} {routes : List Route} {loaded : GateConfig}
    (ok : loadSettings config routes = .ok loaded) :
    ∀ option ∈ settingOptions, option.Reads config loaded := by
  obtain ⟨_, -, ok⟩ := bind_eq_ok.mp ok
  obtain ⟨connectionTracking, tracking, ok⟩ := bind_eq_ok.mp ok
  obtain ⟨statsLogging, stats, ok⟩ := bind_eq_ok.mp ok
  obtain ⟨_, -, ok⟩ := bind_eq_ok.mp ok
  obtain ⟨connectionThrottle, throttle, ok⟩ := bind_eq_ok.mp ok
  obtain ⟨autoBan, ban, ok⟩ := bind_eq_ok.mp ok
  obtain ⟨udpThrottle, udp, ok⟩ := bind_eq_ok.mp ok
  cases ok
  have ban' (c : Mapping) (isMap : getMap config "autoBan" = some c) :=
    parseAutoBan_some (isMap ▸ ban)
  have udp' (c : Mapping) (isMap : getMap config "udpThrottle" = some c) :=
    parseUdpThrottle_some (isMap ▸ udp)
  have throttle' (c : Mapping) (isMap : getMap config "connectionThrottle" = some c) :=
    parseConnectionThrottle_some (isMap ▸ throttle)
  have tracking' (c : Mapping) (isMap : getMap config "connectionTracking" = some c) :=
    parseConnectionTracking_some (isMap ▸ tracking)
  have stats' (c : Mapping) (isMap : getMap config "statsLogging" = some c) :=
    parseStatsLogging_some (isMap ▸ stats)
  simp only [settingOptions, List.forall_mem_cons]
  refine ⟨.top rfl, .top rfl, .top rfl, .top rfl, ?_⟩
  refine ⟨.under _ fun c isMap => congrArg some (ban' c isMap), ?_⟩
  refine ⟨.under _ fun c isMap => congrArg some (udp' c isMap).1,
    .under _ fun c isMap => congrArg some (udp' c isMap).2.1,
    .under _ fun c isMap => congrArg some (udp' c isMap).2.2, ?_⟩
  refine ⟨.under _ fun c isMap => congrArg some (throttle' c isMap).1,
    .under _ fun c isMap => congrArg some (throttle' c isMap).2, ?_⟩
  refine ⟨.under 500 fun c isMap => by rw [isMap]; rfl, ?_⟩
  refine ⟨.under _ fun c isMap => congrArg some (tracking' c isMap).1,
    .under _ fun c isMap => congrArg some (tracking' c isMap).2.1,
    .under _ fun c isMap => congrArg some (tracking' c isMap).2.2.1,
    .under _ fun c isMap => congrArg some (tracking' c isMap).2.2.2, ?_⟩
  refine ⟨.under _ fun c isMap => congrArg some (stats' c isMap).1,
    .under _ fun c isMap => congrArg some (stats' c isMap).2, ?_⟩
  exact List.forall_mem_nil _

private theorem inSections_two {outer inner : String} {map found : Mapping} :
    inSections [outer, inner] map = some found ↔
      ∃ between, getMap map outer = some between ∧ getMap between inner = some found := by
  simp only [inSections, Option.bind_eq_some_iff, Option.some.injEq, exists_eq_right]

/-- Every option of a route is read with `get_i32`. -/
theorem routeOptions_read {env : Externals} {messages : GateMessages} {entry : Value}
    {map : Mapping} {route : Route} (whole : entry.asMapping = some map)
    (read : routeOf env messages entry = some route) :
    ∀ option ∈ routeOptions, option.Reads map route := by
  have ok := (@parseRouteEntry_eq_ok env messages 0 entry route).mpr read
  unfold parseRouteEntry at ok
  rw [whole] at ok
  obtain ⟨_, -, ok⟩ := bind_eq_ok.mp ok
  obtain ⟨_, -, ok⟩ := bind_eq_ok.mp ok
  obtain ⟨_, -, ok⟩ := bind_eq_ok.mp ok
  obtain ⟨_, -, ok⟩ := bind_eq_ok.mp ok
  obtain ⟨_, -, ok⟩ := bind_eq_ok.mp ok
  obtain ⟨_, -, ok⟩ := bind_eq_ok.mp ok
  obtain ⟨_, -, ok⟩ := bind_eq_ok.mp ok
  cases ok
  simp only [routeOptions, List.forall_mem_cons]
  refine ⟨.top rfl, fun inner isInner => ?_, fun inner isInner => ?_, fun inner isInner => ?_,
    List.forall_mem_nil _⟩
  all_goals obtain ⟨f, fallback, within⟩ := inSections_two.mp isInner
  · exact ⟨-1, by simp [fallback, within, parseFallback]⟩
  · exact ⟨0, by simp [fallback, within, parseFallback]⟩
  · exact ⟨0, by simp [fallback, within, parseFallback]⟩

/-! ### The whole file -/

/-- Every value of the document in a place that `get_i32` reads is an integer and stored as it
is. -/
def IntsExact (env : Externals) (messages : GateMessages) (root : Value) (loaded : GateConfig) :
    Prop :=
  (∀ option ∈ settingOptions, option.Exact (configSection root) loaded) ∧
  ∀ entry ∈ rawRoutes (configSection root), ∃ map, entry.asMapping = some map ∧
    ∃ route ∈ loaded.routes, routeOf env messages entry = some route ∧
      ∀ option ∈ routeOptions, option.Exact map route

/-- Every value of the document in a place that `get_i32` reads is an integer of at most 32
bits. -/
def IntsFit (root : Value) : Prop :=
  (∀ option ∈ settingOptions, option.fits (configSection root)) ∧
  ∀ entry ∈ rawRoutes (configSection root), ∀ option ∈ routeOptions,
    option.fits (entry.asMapping.getD [])

instance (root : Value) : Decidable (IntsFit root) := inferInstanceAs (Decidable (_ ∧ _))

private theorem asMapping_of_routeOf {env : Externals} {messages : GateMessages} {entry : Value}
    {route : Route} (read : routeOf env messages entry = some route) :
    ∃ map, entry.asMapping = some map := by
  have ok := (@parseRouteEntry_eq_ok env messages 0 entry route).mpr read
  unfold parseRouteEntry at ok
  split at ok
  next => cases ok
  next map whole => exact ⟨map, whole⟩

/-- A file is loaded with its integers exactly if there is nothing else in their places and all of
them fit. -/
theorem ints_exact_iff {env : Externals} {messages : GateMessages} {root : Value}
    {loaded : GateConfig} (ok : loadValue env root messages = .ok loaded) :
    IntsExact env messages root loaded ↔ IntsFit root := by
  obtain ⟨routes, all, sorted, settings⟩ := loadValue_eq_ok ok
  apply and_congr
  · exact forall₂_congr fun option member =>
      IntOption.exact_iff_fits (settingOptions_read settings option member)
  · refine forall₂_congr fun entry member => ?_
    have parsed : routeOf env messages entry ∈ routes.map some := all ▸ List.mem_map_of_mem member
    obtain ⟨route, inRoutes, read⟩ := List.mem_map.mp parsed
    -- wherever the sort has put the route of the entry
    have kept : route ∈ loaded.routes := by
      rw [sorted, sortRoutes, List.mem_insertionSort]
      exact inRoutes
    obtain ⟨map, whole⟩ := asMapping_of_routeOf read.symm
    have options (route' : Route) (read' : routeOf env messages entry = some route') :
        (∀ option ∈ routeOptions, option.Exact map route') ↔
          ∀ option ∈ routeOptions, option.fits map :=
      forall₂_congr fun option member =>
        IntOption.exact_iff_fits (routeOptions_read whole read' option member)
    rw [whole, Option.getD_some]
    constructor
    · rintro ⟨_, ⟨⟩, route', -, read', good⟩
      exact (options route' read').mp good
    · intro fit
      exact ⟨map, rfl, route, kept, read.symm, (options route read.symm).mpr fit⟩

-- a limit that is written as a text is taken for a missing one
example : ¬ IntsFit (.mapping [(.string "maxConnectionsPerIp".toList, .string "16".toList)]) := by
  decide

/-- When a number of the configuration is read exactly or rejected: for durations, for byte
sizes, and for the integers of a file that is loaded. -/
theorem numbers_exact_iff (duration : Text) (toLowercase : Text → Text) (size : Text) {F : Type}
    (env : Externals) (format : Format F) (path : Text) (text : F) (root : Value)
    (messages : GateMessages) (loaded : GateConfig) :
    (ExactOrRejected (parseDurationMillis duration) (Lasts duration) ↔ DurationFits duration) ∧
    (ExactOrRejected (parseByteSize toLowercase size) (Sized toLowercase size) ↔
      SizeReadable toLowercase size) ∧
    (format.fromStr text = .ok root →
      loadConfig env format path (some text) messages = .ok loaded →
      (IntsExact env messages root loaded ↔ IntsFit root)) := by
  refine ⟨duration_exact_iff duration, size_exact_iff toLowercase size, fun parses loads => ?_⟩
  simp only [loadConfig, parses] at loads
  exact ints_exact_iff loads

private theorem numeral_of_all {digits : Text} (nonempty : digits ≠ [])
    (all : digits.all fun c => (toDigit 10 c).isSome) : Numeral digits :=
  ⟨nonempty, List.all_eq_true.mp all⟩

private theorem amount_of_spelled {value amount suffix : Text} {n : Int}
    (spelled : SignedNumeral amount n) (whole : trim value = amount ++ suffix)
    (ends : suffix.head?.all fun c => !isAmountChar c) : Amount value n suffix := by
  refine ⟨amount, spelled, whole, fun c first => ?_⟩
  rw [first, Option.all_some, Bool.not_eq_true'] at ends
  exact Bool.eq_false_iff.mp ends

private theorem numeral_one : Numeral "1".toList := numeral_of_all (by decide) (by decide)

private theorem amount_second : Amount "-1s".toList (-1) "s".toList :=
  amount_of_spelled (.negated numeral_one) (by decide) (by decide)

private theorem amount_gigabyte : Amount " 1GiB ".toList 1 "GiB".toList :=
  amount_of_spelled (.plain numeral_one) (by decide) (by decide)

/-- A document with one setting at its top. -/
def setting (key : String) (n : UInt64) : Value :=
  .mapping [(.string key.toList, .number (.posInt n))]

/-- A duration, a size and a file that are read as they are written. -/
theorem numbers_read :
    ExactOrRejected (parseDurationMillis "-1s".toList) (Lasts "-1s".toList) ∧
    ExactOrRejected (parseByteSize (List.map Char.toLower) " 1GiB ".toList)
      (Sized (List.map Char.toLower) " 1GiB ".toList) ∧
    ∃ loaded, loadConfig asciiExternals ⟨.ok, .ok⟩ [] (some (setting "soBacklog" 64)) {} =
        .ok loaded ∧
      IntsExact asciiExternals {} (setting "soBacklog" 64) loaded := by
  obtain ⟨durations, sizes, files⟩ := numbers_exact_iff "-1s".toList (List.map Char.toLower)
    " 1GiB ".toList asciiExternals (⟨.ok, .ok⟩ : Format Value) [] (setting "soBacklog" 64) _ {} _
  refine ⟨durations.mpr ?_, sizes.mpr ?_, _, rfl, (files rfl rfl).mpr (by decide)⟩
  · intro n unit factor amount known _
    obtain ⟨rfl, rfl⟩ := amount.unique amount_second
    rw [durationUnits_unique known (show ("s".toList, 1000) ∈ durationUnits by decide)]
    decide
  · intro n suffix amount
    obtain ⟨rfl, rfl⟩ := amount.unique amount_gigabyte
    refine ⟨fun negative => absurd negative (by decide), fun _ letter factor known whole => ?_⟩
    have all : ∀ entry ∈ sizeLetters, "gib".toList ≠ entry.1 ++ ['i'] := by decide
    exact absurd whole (all _ known)

private theorem numeral_max : Numeral "9223372036854775807".toList :=
  numeral_of_all (by decide) (by decide)

private theorem amount_overflow :
    Amount "9223372036854775807s".toList 9223372036854775807 "s".toList :=
  amount_of_spelled (.plain numeral_max) (by decide) (by decide)

private theorem amount_nonsense : Amount "-1xyz".toList (-1) "xyz".toList :=
  amount_of_spelled (.negated numeral_one) (by decide) (by decide)

/-- The largest number of seconds wraps to minus one second, a negative number is a size
whatever follows it, and a limit of `2 ^ 32` is loaded as no limit. -/
theorem numbers_altered :
    (¬ ∀ value, ExactOrRejected (parseDurationMillis value) (Lasts value)) ∧
    (¬ ∀ toLowercase value,
      ExactOrRejected (parseByteSize toLowercase value) (Sized toLowercase value)) ∧
    ¬ ∀ (F : Type) (env : Externals) (format : Format F) (path : Text) (text : F) (root : Value)
        (messages : GateMessages) (loaded : GateConfig),
      format.fromStr text = .ok root →
      loadConfig env format path (some text) messages = .ok loaded →
      IntsExact env messages root loaded := by
  refine ⟨fun all => ?_, fun all => ?_, fun all => ?_⟩
  · have product := (duration_exact_iff _).mp (all _) _ _ 1000 amount_overflow
      (by decide) (by decide)
    exact absurd product (by decide)
  · have negative := ((size_exact_iff (List.map Char.toLower) _).mp (all _ _) _ _
      amount_nonsense).1 (by decide)
    obtain ⟨factor, letter, ending, whole, known, ends⟩ := negative.mp (by decide)
    have none : ∀ entry ∈ sizeLetters, ∀ ending ∈ sizeEndings,
        "xyz".toList ≠ entry.1 ++ ending := by
      decide
    exact none _ known _ ends whole
  · have good := all Value asciiExternals ⟨.ok, .ok⟩ [] (setting "maxConnectionsPerIp" 4294967296)
      _ {} _ rfl rfl
    exact absurd ((ints_exact_iff rfl).mp good) (by decide)

end MCGate.Config
