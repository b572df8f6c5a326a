import MCGate.Std.AddrRoundTrip

/-!
# Captures in backend addresses

A backend address may refer to what a host pattern captured: `$1` is the first capture. A
template is read as characters and references in one way only, and substituting replaces the
references that are in range. The scanner parses a reference into a `usize` before it looks
whether it is in range, so it comes back exactly if that many digits fit.
-/
namespace MCGate

/-- `char::is_ascii_digit` -/
def isAsciiDigit (c : Char) : Bool := '0' ≤ c ∧ c ≤ '9'

/-- `usize::MAX` on the 64-bit targets that the program is released for -/
def usizeMax : Nat := 18446744073709551615

/-- `str::parse::<usize>` -/
def parseUsize (text : Text) : Option Nat :=
  let digits := if text.head? = some '+' then text.tail else text
  match readDigits 10 digits with
  | ([], _) => none
  | (ds, []) => if digitsValue 10 ds ≤ usizeMax then some (digitsValue 10 ds) else none
  | _ => none

/-- The loop of `substitute_params`. The `none` is a panic: `unwrap` of digits that do not
parse. -/
def substitute (captures : List Text) : Text → Option Text
  | [] => some []
  | c :: rest =>
    -- a `$` without digits is a character like any other
    if c = '$' ∧ rest.takeWhile isAsciiDigit ≠ [] then
      let digits := rest.takeWhile isAsciiDigit
      match parseUsize digits with
      -- the digits are parsed before anything asks whether they are in range
      | none => none
      | some idx =>
        let shown := if 1 ≤ idx ∧ idx ≤ captures.length then captures.getD (idx - 1) []
          else '$' :: digits
        -- the scan goes on after the digits, not in what was put in their place
        (substitute captures (rest.dropWhile isAsciiDigit)).map (shown ++ ·)
    else (substitute captures rest).map (c :: ·)
termination_by template => template.length
decreasing_by
  · have := (List.dropWhile_suffix isAsciiDigit (l := rest)).length_le
    simp only [List.length_cons]
    omega
  · simp

def substituteParams (template : Text) (captures : List Text) : Option Text :=
  if captures.isEmpty then some template else substitute captures template

/-! ### References -/

/-- One or more digits. -/
def Numeral (text : Text) : Prop := text ≠ [] ∧ ∀ c ∈ text, (toDigit 10 c).isSome

def numeralValue (text : Text) : Nat := digitsValue 10 (text.filterMap (toDigit 10))

/-- A `$` with all the digits that follow it stands in the template. -/
def Refers (template digits : Text) : Prop :=
  Numeral digits ∧ ∃ before after, template = before ++ '$' :: (digits ++ after) ∧ NoDigit 10 after

inductive Token where
  | plain (c : Char)
  | ref (digits : Text)

/-- How a template is read: a reference is a `$` with all the digits that follow it, and
everything else stands for itself. -/
inductive Tokens : Text → List Token → Prop where
  | done : Tokens [] []
  | plain {c : Char} {rest : Text} {tokens : List Token} :
      (c = '$' → NoDigit 10 rest) → Tokens rest tokens → Tokens (c :: rest) (.plain c :: tokens)
  | ref {digits rest : Text} {tokens : List Token} :
      Numeral digits → NoDigit 10 rest → Tokens rest tokens →
        Tokens ('$' :: (digits ++ rest)) (.ref digits :: tokens)

namespace Token

/-- What is put in place of a token: the capture that it refers to, or else its own text. -/
def replaced (captures : List Text) : Token → Text
  | .plain c => [c]
  | .ref digits =>
    if 1 ≤ numeralValue digits ∧ numeralValue digits ≤ captures.length then
      captures.getD (numeralValue digits - 1) []
    else '$' :: digits

end Token

/-- The result is the template with its references replaced. -/
def Substituted (captures : List Text) (template result : Text) : Prop :=
  ∃ tokens, Tokens template tokens ∧ result = tokens.flatMap (Token.replaced captures)

/-! ### Digits -/

theorem isSome_toDigit (c : Char) : (toDigit 10 c).isSome = isAsciiDigit c := by
  simp only [toDigit, isAsciiDigit]
  by_cases decimal : '0' ≤ c ∧ c ≤ '9'
  · have high : c.toNat ≤ 57 := decimal.2
    have small : c.toNat - '0'.toNat < 10 := by
      have zero : '0'.toNat = 48 := rfl
      omega
    rw [if_pos decimal, Option.filter_some, if_pos (by simpa using small)]
    simpa using decimal
  · rw [if_neg decimal]
    -- letters are digits of a larger radix only
    split_ifs <;> simp [decimal]

/-- What follows a `$` that stands for itself does not start with a reference's digits. -/
theorem Numeral.not_noDigit {digits : Text} (numeral : Numeral digits) (rest : Text) :
    ¬ NoDigit 10 (digits ++ rest) := by
  obtain ⟨d, digits, rfl⟩ := List.exists_cons_of_ne_nil numeral.1
  intro stop
  have digit := numeral.2 d List.mem_cons_self
  rw [stop d rfl] at digit
  cases digit

private theorem takeWhile_numeral {digits rest : Text} (numeral : Numeral digits)
    (stop : NoDigit 10 rest) :
    (digits ++ rest).takeWhile isAsciiDigit = digits ∧
      (digits ++ rest).dropWhile isAsciiDigit = rest := by
  have all : ∀ c ∈ digits, isAsciiDigit c := by
    intro c member
    rw [← isSome_toDigit]
    exact numeral.2 c member
  rw [List.takeWhile_append_of_pos all, List.dropWhile_append_of_pos all]
  cases rest with
  | nil => exact ⟨List.append_nil digits, rfl⟩
  | cons c rest =>
    have other : ¬ isAsciiDigit c := by
      rw [← isSome_toDigit, stop c rfl]
      exact Bool.false_ne_true
    rw [List.takeWhile_cons_of_neg other, List.dropWhile_cons_of_neg other]
    exact ⟨List.append_nil digits, rfl⟩

private theorem noDigit_iff {rest : Text} : NoDigit 10 rest ↔ rest.takeWhile isAsciiDigit = [] := by
  cases rest with
  | nil => exact iff_of_true (noDigit_nil 10) rfl
  | cons c rest =>
    have first := isSome_toDigit c
    constructor
    · intro stop
      rw [stop c rfl] at first
      simp [← first]
    · rintro none d ⟨⟩
      cases digit : toDigit 10 c with
      | none => rfl
      | some n =>
        rw [digit, Option.isSome_some] at first
        simp [← first] at none

theorem Numeral.unsigned {digits : Text} (numeral : Numeral digits) : digits.head? ≠ some '+' := by
  intro plus
  have digit := numeral.2 '+' (List.mem_of_head? plus)
  exact absurd digit (by decide)

theorem readDigits_numeral {digits : Text} (numeral : Numeral digits) :
    ∃ d later, readDigits 10 digits = (d :: later, []) ∧
      digitsValue 10 (d :: later) = numeralValue digits := by
  obtain ⟨some, all⟩ := numeral
  have shown : digits.map (toDigit 10) = (digits.filterMap (toDigit 10)).map Option.some := by
    clear some
    induction digits with
    | nil => rfl
    | cons c digits ih =>
      obtain ⟨here, later⟩ := List.forall_mem_cons.mp all
      obtain ⟨d, digit⟩ := Option.isSome_iff_exists.mp here
      rw [List.map_cons, List.filterMap_cons_some digit, List.map_cons, digit, ih later]
  have read := readDigits_append shown (noDigit_nil 10)
  rw [List.append_nil] at read
  cases values : digits.filterMap (toDigit 10) with
  | nil =>
    rw [values, List.map_nil, List.map_eq_nil_iff] at shown
    exact absurd shown some
  | cons d later =>
    rw [values] at read
    exact ⟨d, later, read, by rw [numeralValue, values]⟩

/-- Digits parse if their value fits. -/
theorem parseUsize_numeral {digits : Text} (numeral : Numeral digits) :
    parseUsize digits =
      if numeralValue digits ≤ usizeMax then some (numeralValue digits) else none := by
  obtain ⟨d, later, read, value⟩ := readDigits_numeral numeral
  rw [parseUsize, if_neg numeral.unsigned, read, ← value]

/-! ### Reading a template -/

theorem tokens_exist (template : Text) : ∃ tokens, Tokens template tokens := by
  -- on the length: a reference takes all its digits off at once
  induction size : template.length using Nat.strong_induction_on generalizing template with
  | _ size ih =>
    subst size
    cases template with
    | nil => exact ⟨[], .done⟩
    | cons c rest =>
      by_cases ref : c = '$' ∧ rest.takeWhile isAsciiDigit ≠ []
      · obtain ⟨rfl, some⟩ := ref
        have shorter := (List.dropWhile_suffix isAsciiDigit (l := rest)).length_le
        obtain ⟨tokens, read⟩ := ih _ (Nat.lt_succ_of_le shorter) (rest.dropWhile isAsciiDigit) rfl
        have digits : Numeral (rest.takeWhile isAsciiDigit) := by
          refine ⟨some, fun d member => ?_⟩
          rw [isSome_toDigit]
          exact List.mem_takeWhile_imp member
        have stop : NoDigit 10 (rest.dropWhile isAsciiDigit) := by
          intro c first
          have other := List.head?_dropWhile_not isAsciiDigit rest
          rw [first] at other
          rw [← Option.not_isSome_iff_eq_none, isSome_toDigit]
          simpa using other
        have whole := Tokens.ref digits stop read
        rw [List.takeWhile_append_dropWhile] at whole
        exact ⟨_, whole⟩
      · obtain ⟨tokens, read⟩ := ih _ (Nat.lt_succ_self _) rest rfl
        refine ⟨_, .plain (fun dollar => ?_) read⟩
        rw [noDigit_iff]
        by_contra some
        exact ref ⟨dollar, some⟩

/-- A template is read in one way. -/
theorem Tokens.unique {template : Text} {tokens tokens' : List Token}
    (read : Tokens template tokens) (read' : Tokens template tokens') : tokens = tokens' := by
  induction read generalizing tokens' with
  | done =>
    cases read'
    rfl
  | plain dollar _ ih =>
    cases read' with
    | plain _ later => rw [ih later]
    | ref numeral stop later => exact absurd (dollar rfl) (numeral.not_noDigit _)
  | @ref digits rest tokens numeral stop _ ih =>
    -- both readings take the longest run of digits
    generalize whole : '$' :: (digits ++ rest) = template at read'
    cases read' with
    | done => cases whole
    | plain dollar later =>
      obtain ⟨rfl, rfl⟩ := List.cons.inj whole
      exact absurd (dollar rfl) (numeral.not_noDigit _)
    | ref numeral' stop' later =>
      obtain ⟨-, same⟩ := List.cons.inj whole
      obtain ⟨taken, dropped⟩ := takeWhile_numeral numeral stop
      obtain ⟨taken', dropped'⟩ := takeWhile_numeral numeral' stop'
      rw [same] at taken dropped
      rw [taken] at taken'
      rw [dropped] at dropped'
      subst taken' dropped'
      rw [ih later]

theorem Substituted.unique {captures : List Text} {template result result' : Text}
    (one : Substituted captures template result) (other : Substituted captures template result') :
    result = result' := by
  obtain ⟨tokens, read, rfl⟩ := one
  obtain ⟨tokens', read', rfl⟩ := other
  rw [read.unique read']

/-- Without captures every reference is out of range, and the template stays as it is. -/
theorem substituted_nil (template : Text) : Substituted [] template template := by
  obtain ⟨tokens, read⟩ := tokens_exist template
  refine ⟨tokens, read, ?_⟩
  induction read with
  | done => rfl
  | plain _ _ ih =>
    rw [List.flatMap_cons, ← ih]
    rfl
  | @ref digits rest tokens _ _ _ ih =>
    have out : ¬ (1 ≤ numeralValue digits ∧ numeralValue digits ≤ ([] : List Text).length) := by
      rw [List.length_nil]
      omega
    rw [List.flatMap_cons, ← ih, Token.replaced, if_neg out, List.cons_append]

/-- The references that are read are those that stand in the template: no `$` is a digit. -/
theorem Tokens.mem_iff {template digits : Text} {tokens : List Token}
    (read : Tokens template tokens) : .ref digits ∈ tokens ↔ Refers template digits := by
  induction read with
  | done =>
    constructor
    · intro member
      cases member
    · rintro ⟨-, before, after, whole, -⟩
      simp at whole
  | @plain c rest tokens dollar _ ih =>
    rw [List.mem_cons, ih]
    constructor
    · rintro (same | ⟨numeral, before, after, rfl, stop⟩)
      · cases same
      · exact ⟨numeral, c :: before, after, rfl, stop⟩
    · rintro ⟨numeral, before, after, whole, stop⟩
      -- the reference does not start here, where a plain character stands
      right
      cases before with
      | nil =>
        obtain ⟨rfl, rfl⟩ := List.cons.inj whole
        exact absurd (dollar rfl) (numeral.not_noDigit _)
      | cons b before =>
        obtain ⟨rfl, rfl⟩ := List.cons.inj whole
        exact ⟨numeral, before, after, rfl, stop⟩
  | @ref other rest tokens numeral' stop' _ ih =>
    rw [List.mem_cons, ih]
    constructor
    · rintro (same | ⟨numeral, before, after, rfl, stop⟩)
      · obtain rfl := Token.ref.inj same
        exact ⟨numeral', [], rest, rfl, stop'⟩
      · refine ⟨numeral, '$' :: (other ++ before), after, ?_, stop⟩
        rw [List.cons_append, List.append_assoc]
    · rintro ⟨numeral, before, after, whole, stop⟩
      cases before with
      | nil =>
        left
        obtain ⟨-, same⟩ := List.cons.inj whole
        have taken := (takeWhile_numeral numeral' stop').1
        rw [same, (takeWhile_numeral numeral stop).1] at taken
        rw [taken]
      | cons b before =>
        right
        obtain ⟨-, same⟩ := List.cons.inj whole
        -- the digits of the reference that is read hold no `$`
        rcases List.append_eq_append_iff.mp same with ⟨more, rfl, split⟩ | ⟨more, split, split'⟩
        · exact ⟨numeral, more, after, split, stop⟩
        · cases more with
          | nil =>
            rw [List.nil_append] at split'
            exact ⟨numeral, [], after, split'.symm, stop⟩
          | cons m more =>
            obtain ⟨rfl, -⟩ := List.cons.inj split'
            have digit := numeral'.2 '$' (split ▸ List.mem_append_right _ List.mem_cons_self)
            exact absurd digit (by decide)

/-! ### Substituting -/

private theorem substitute_plain {captures : List Text} {c : Char} {rest : Text}
    (dollar : c = '$' → NoDigit 10 rest) :
    substitute captures (c :: rest) = (substitute captures rest).map (c :: ·) := by
  rw [substitute, if_neg]
  rintro ⟨ref, some⟩
  exact some (noDigit_iff.mp (dollar ref))

private theorem substitute_ref {captures : List Text} {digits rest : Text}
    (numeral : Numeral digits) (stop : NoDigit 10 rest) :
    substitute captures ('$' :: (digits ++ rest)) =
      if numeralValue digits ≤ usizeMax then
        (substitute captures rest).map (Token.replaced captures (.ref digits) ++ ·)
      else none := by
  obtain ⟨taken, dropped⟩ := takeWhile_numeral numeral stop
  rw [substitute, taken, dropped, if_pos ⟨rfl, numeral.1⟩]
  dsimp only
  rw [parseUsize_numeral numeral]
  by_cases fits : numeralValue digits ≤ usizeMax
  · rw [if_pos fits, if_pos fits]
    rfl
  · rw [if_neg fits, if_neg fits]

/-- The scan replaces the tokens one by one, unless the digits of one do not fit. -/
theorem substitute_eq {captures : List Text} {template : Text} {tokens : List Token}
    (read : Tokens template tokens)
    (fit : ∀ digits, .ref digits ∈ tokens → numeralValue digits ≤ usizeMax) :
    substitute captures template = some (tokens.flatMap (Token.replaced captures)) := by
  induction read with
  | done => rw [substitute]; rfl
  | plain dollar _ ih =>
    rw [substitute_plain dollar, ih fun digits member => fit digits (List.mem_cons_of_mem _ member)]
    rfl
  | ref numeral stop _ ih =>
    rw [substitute_ref numeral stop, if_pos (fit _ List.mem_cons_self),
      ih fun digits member => fit digits (List.mem_cons_of_mem _ member)]
    rfl

private theorem substitute_eq_none {captures : List Text} {template digits : Text}
    {tokens : List Token} (read : Tokens template tokens) (member : .ref digits ∈ tokens)
    (large : usizeMax < numeralValue digits) : substitute captures template = none := by
  induction read with
  | done => cases member
  | plain dollar _ ih =>
    rcases List.mem_cons.mp member with same | member
    · cases same
    · rw [substitute_plain dollar, ih member, Option.map_none]
  | ref numeral stop _ ih =>
    rw [substitute_ref numeral stop]
    rcases List.mem_cons.mp member with same | member
    · obtain rfl := Token.ref.inj same
      exact if_neg (Nat.not_le_of_lt large)
    · rw [ih member, Option.map_none, ite_self]

theorem substituteParams_of_fit {captures : List Text} {template : Text}
    (fit : captures = [] ∨ ∀ digits, Refers template digits → numeralValue digits ≤ usizeMax) :
    ∃ result, substituteParams template captures = some result ∧
      Substituted captures template result := by
  rw [substituteParams]
  by_cases none : captures = []
  · subst none
    exact ⟨template, rfl, substituted_nil template⟩
  · have fit := fit.resolve_left none
    obtain ⟨tokens, read⟩ := tokens_exist template
    rw [if_neg (by simpa using none),
      substitute_eq read fun digits member => fit digits (read.mem_iff.mp member)]
    exact ⟨_, rfl, tokens, read, rfl⟩

/-- Where something is captured, a reference that does not fit stops the scan. -/
theorem fit_of_returned {captures : List Text} {template result digits : Text}
    (some : captures ≠ []) (returned : substituteParams template captures = .some result)
    (refers : Refers template digits) : numeralValue digits ≤ usizeMax := by
  obtain ⟨tokens, read⟩ := tokens_exist template
  by_contra large
  have panics := @substitute_eq_none captures _ _ _ read (read.mem_iff.mpr refers)
    (Nat.lt_of_not_le large)
  rw [substituteParams, if_neg (by simpa using some), panics] at returned
  cases returned

/-- Substituting comes back, with the template's references replaced, exactly if there is
nothing to put in or every reference fits into a `usize`. -/
theorem substituteParams_iff (template : Text) (captures : List Text) :
    (∃ result, substituteParams template captures = some result ∧
      Substituted captures template result) ↔
    captures = [] ∨ ∀ digits, Refers template digits → numeralValue digits ≤ usizeMax := by
  refine ⟨?_, substituteParams_of_fit⟩
  rintro ⟨result, returned, -⟩
  by_cases none : captures = []
  · exact .inl none
  · exact .inr fun digits => fit_of_returned none returned

/-- The first number that is too large for a `usize`, where nothing is captured that it could
mean. -/
theorem largeReference_panics :
    ¬ ∃ result, substituteParams "srv$18446744073709551616".toList ["a".toList] = some result ∧
      Substituted ["a".toList] "srv$18446744073709551616".toList result := by
  have panics : substituteParams "srv$18446744073709551616".toList ["a".toList] = none := by
    decide +kernel
  rintro ⟨result, returned, -⟩
  rw [panics] at returned
  cases returned

example : substituteParams "srv$1.internal:$2$9".toList ["a$2".toList, "25566".toList] =
    some "srva$2.internal:25566$9".toList := by decide +kernel

end MCGate
