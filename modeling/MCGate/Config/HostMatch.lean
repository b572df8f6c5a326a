import Mathlib.Data.List.Induction
import Mathlib.Data.List.Infix
import MCGate.Config.HostPattern

/-!
# What a match captures

A pattern stands for the texts that it gives when its wildcards are filled in. `match_host` finds
out with a table whether a hostname is one of them, and the walk that follows reads off one way
to fill the pattern in: the one whose `*` are the longest from left to right, since the table
says of each `*` how far it can go.
-/
namespace MCGate.HostPattern

/-- The pattern with the parts in place of its wildcards, if there are as many parts and each
`?` stands for one character. -/
def fill : Text → List Text → Option Text
  | [], [] => some []
  | [], _ :: _ => none
  | pc :: p, parts =>
    if pc = '*' then
      match parts with
      | [] => none
      | part :: parts => (fill p parts).map (part ++ ·)
    else if pc = '?' then
      match parts with
      | [c] :: parts => (fill p parts).map (c :: ·)
      | _ => none
    else (fill p parts).map (pc :: ·)

/-- The lengths of the parts that stand for a `*`. -/
def starLengths : Text → List Text → List Nat
  | [], _ => []
  | pc :: p, parts =>
    if pc = '*' then (parts.headD []).length :: starLengths p parts.tail
    else if pc = '?' then starLengths p parts.tail
    else starLengths p parts

example : fill "*-?.example.com".toList ["eu-a".toList, "1".toList] =
    some "eu-a-1.example.com".toList := by decide

variable {pc : Char} {p text : Text} {parts : List Text}

theorem fill_nil_eq_some : fill [] parts = some text ↔ parts = [] ∧ text = [] := by
  cases parts with
  | nil => simp [fill, eq_comm]
  | cons part parts => simp [fill]

theorem fill_star_eq_some :
    fill ('*' :: p) parts = some text ↔
      ∃ part parts' rest, parts = part :: parts' ∧ fill p parts' = some rest ∧
        part ++ rest = text := by
  rw [fill.eq_def]
  cases parts with
  | nil => simp
  | cons part parts => simp [Option.map_eq_some_iff]

theorem fill_one_eq_some :
    fill ('?' :: p) parts = some text ↔
      ∃ c parts' rest, parts = [c] :: parts' ∧ fill p parts' = some rest ∧ c :: rest = text := by
  rw [fill.eq_def]
  rcases parts with _ | ⟨_ | ⟨c, _ | ⟨d, part⟩⟩, parts⟩ <;> simp [Option.map_eq_some_iff]

theorem fill_literal_eq_some (star : pc ≠ '*') (one : pc ≠ '?') :
    fill (pc :: p) parts = some text ↔ ∃ rest, fill p parts = some rest ∧ pc :: rest = text := by
  rw [fill.eq_def]
  simp [star, one, Option.map_eq_some_iff]

/-! ### The table -/

/-- The text is the pattern filled in somehow, by recursion on the pattern. -/
def fits : Text → Text → Bool
  | [], text => text.isEmpty
  | pc :: p, text =>
    if pc = '*' then text.tails.any (fits p)
    else
      match text with
      | [] => false
      | c :: text => (pc = '?' || c = pc) && fits p text

private theorem fits_star : fits ('*' :: p) text ↔ ∃ rest, rest <:+ text ∧ fits p rest := by
  simp only [fits, if_true, List.any_eq_true, List.mem_tails]

theorem fits_one : fits ('?' :: p) text ↔ ∃ c rest, text = c :: rest ∧ fits p rest := by
  cases text <;> simp [fits]

theorem fits_literal (star : pc ≠ '*') (one : pc ≠ '?') :
    fits (pc :: p) text ↔ ∃ rest, text = pc :: rest ∧ fits p rest := by
  cases text <;> simp [fits, star, one]

theorem fits_iff_fill : fits p text ↔ ∃ parts, fill p parts = some text := by
  induction p generalizing text with
  | nil => simp [fits, fill_nil_eq_some]
  | cons pc p ih =>
    by_cases star : pc = '*'
    · subst star
      rw [fits_star]
      constructor
      · rintro ⟨rest, ⟨part, rfl⟩, fit⟩
        obtain ⟨parts, filled⟩ := ih.mp fit
        exact ⟨part :: parts, fill_star_eq_some.mpr ⟨part, parts, rest, rfl, filled, rfl⟩⟩
      · rintro ⟨parts, filled⟩
        obtain ⟨part, parts', rest, rfl, tail, rfl⟩ := fill_star_eq_some.mp filled
        exact ⟨rest, List.suffix_append part rest, ih.mpr ⟨parts', tail⟩⟩
    · by_cases one : pc = '?'
      · subst one
        rw [fits_one]
        constructor
        · rintro ⟨c, rest, rfl, fit⟩
          obtain ⟨parts, filled⟩ := ih.mp fit
          exact ⟨[c] :: parts, fill_one_eq_some.mpr ⟨c, parts, rest, rfl, filled, rfl⟩⟩
        · rintro ⟨parts, filled⟩
          obtain ⟨c, parts', rest, rfl, tail, rfl⟩ := fill_one_eq_some.mp filled
          exact ⟨c, rest, rfl, ih.mpr ⟨parts', tail⟩⟩
      · rw [fits_literal star one]
        constructor
        · rintro ⟨rest, rfl, fit⟩
          obtain ⟨parts, filled⟩ := ih.mp fit
          exact ⟨parts, (fill_literal_eq_some star one).mpr ⟨rest, filled, rfl⟩⟩
        · rintro ⟨parts, filled⟩
          obtain ⟨rest, tail, rfl⟩ := (fill_literal_eq_some star one).mp filled
          exact ⟨rest, rfl, ih.mpr ⟨parts, tail⟩⟩

/-- The row of a pattern: which suffixes of the text it fits. -/
def fitRow (p lower : Text) : List Bool := lower.tails.map (fits p)

private theorem headD_fitRow (p lower : Text) : (fitRow p lower).headD false = fits p lower := by
  cases lower <;> rfl

private theorem dpRow_eq (pc : Char) (p lower : Text) :
    dpRow pc lower (fitRow p lower) = fitRow (pc :: p) lower := by
  induction lower with
  | nil =>
    by_cases star : pc = '*' <;> simp [dpRow, fitRow, fits, star]
  | cons c lower ih =>
    have below : fitRow p (c :: lower) = fits p (c :: lower) :: fitRow p lower := by
      simp [fitRow]
    have entry : fitRow (pc :: p) (c :: lower) =
        fits (pc :: p) (c :: lower) :: fitRow (pc :: p) lower := by
      simp [fitRow]
    -- to the right of the new entry the row is the one of the shorter text
    rw [below, dpRow, List.tail_cons, ih, entry, headD_fitRow, List.headD_cons, headD_fitRow]
    congr 1
    by_cases star : pc = '*'
    · simp [star, fits]
    · by_cases one : pc = '?' <;> simp [star, one, fits]

/-- The rows of a pattern and of what follows in it. -/
def fitTable (lower pattern : Text) : List (List Bool) :=
  pattern.tails.map fun p => fitRow p lower

theorem headD_fitTable (lower p : Text) : (fitTable lower p).headD [] = fitRow p lower := by
  cases p <;> rfl

theorem tail_fitTable (lower : Text) (pc : Char) (p : Text) :
    (fitTable lower (pc :: p)).tail = fitTable lower p := by
  simp [fitTable]

private theorem dpTable_eq (lower pattern : Text) :
    dpTable lower pattern = fitTable lower pattern := by
  induction pattern with
  | nil =>
    have last : lower.map (fun _ => false) ++ [true] = fitRow [] lower := by
      induction lower with
      | nil => rfl
      | cons c lower ih =>
        rw [List.map_cons, List.cons_append, ih]
        simp [fitRow, fits]
    rw [dpTable, last]
    rfl
  | cons pc p ih =>
    rw [dpTable, ih, headD_fitTable, dpRow_eq]
    simp [fitTable]

/-! ### The walk -/

private theorem toLower_toLower (c : Char) : c.toLower.toLower = c.toLower := by
  unfold Char.toLower
  by_cases upper : c.val ≥ 'A'.val ∧ c.val ≤ 'Z'.val
  · rw [dif_pos upper]
    apply dif_neg
    rintro ⟨-, below⟩
    obtain ⟨first, last⟩ := upper
    simp only [ge_iff_le, UInt32.le_iff_toNat_le, UInt32.toNat_add] at below first last
    simp at below first last
    omega
  · rw [dif_neg upper, dif_neg upper]

/-- The parts stand for the wildcards of the pattern in the text, and of all ways to fill the
pattern in up to case, theirs has the longest `*` from left to right. -/
structure Captured (pattern text : Text) (captures : List Text) : Prop where
  count : captures.length = (pattern.filter fun c => c = '*' ∨ c = '?').length
  restores : ∃ restored, fill pattern captures = some restored ∧
    restored.map Char.toLower = text.map Char.toLower
  /-- with the literals in the case of the text, the pattern gives the text itself -/
  original : ∃ cased, cased.map Char.toLower = pattern ∧ fill cased captures = some text
  greedy : ∀ parts, fill pattern parts = some (text.map Char.toLower) →
    ¬ List.Lex (· < ·) (starLengths pattern captures) (starLengths pattern parts)

private theorem bestEnd_concat (row : List Bool) (entry : Bool) (j : Nat) :
    bestEnd (row ++ [entry]) j =
      if entry ∧ j ≤ row.length then row.length else bestEnd row j := by
  rw [bestEnd, List.zipIdx_append, List.filter_append, List.foldl_append]
  by_cases last : entry ∧ j ≤ row.length
  · rw [if_pos last]
    simp [last]
  · rw [if_neg last]
    have none_ : ([entry].zipIdx (0 + row.length)).filter (fun e => e.1 && j ≤ e.2) = [] := by
      simpa using last
    rw [none_]
    rfl

/-- The last entry that is set, from `j` on. -/
theorem bestEnd_spec (row : List Bool) (j : Nat) :
    (bestEnd row j = j ∨ j ≤ bestEnd row j ∧ row[bestEnd row j]? = some true) ∧
      ∀ k, j ≤ k → row[k]? = some true → k ≤ bestEnd row j := by
  -- from the end of the row, since the last entry that is set wins
  induction row using List.reverseRecOn with
  | nil => exact ⟨.inl rfl, fun k _ set_ => by cases set_⟩
  | append_singleton row entry ih =>
    rw [bestEnd_concat]
    by_cases last : entry ∧ j ≤ row.length
    · rw [if_pos last]
      constructor
      · right
        refine ⟨last.2, ?_⟩
        rw [List.getElem?_concat_length, last.1]
      · intro k _ set_
        have inside := (List.getElem?_eq_some_iff.mp set_).1
        rw [List.length_append] at inside
        exact Nat.le_of_lt_succ inside
    · rw [if_neg last]
      constructor
      · refine ih.1.imp_right fun found => ⟨found.1, ?_⟩
        have inside := (List.getElem?_eq_some_iff.mp found.2).1
        rw [List.getElem?_append_left inside, found.2]
      · intro k from_ set_
        by_cases inside : k < row.length
        · rw [List.getElem?_append_left inside] at set_
          exact ih.2 k from_ set_
        · have same : k = row.length := by
            have below := (List.getElem?_eq_some_iff.mp set_).1
            rw [List.length_append, List.length_singleton] at below
            omega
          subst same
          rw [List.getElem?_concat_length] at set_
          exact absurd ⟨Option.some.inj set_, from_⟩ last

private theorem bestEnd_set {row : List Bool} {j k : Nat} (from_ : j ≤ k)
    (set_ : row[k]? = some true) : j ≤ bestEnd row j ∧ row[bestEnd row j]? = some true := by
  obtain ⟨found, last⟩ := bestEnd_spec row j
  rcases found with start | found
  · have same : k = j := Nat.le_antisymm (start ▸ last k from_ set_) from_
    rw [start, ← same]
    exact ⟨Nat.le_refl k, set_⟩
  · exact found

private theorem getElem?_fitRow {lower : Text} {k : Nat} :
    (fitRow p lower)[k]? = some true ↔ k ≤ lower.length ∧ fits p (lower.drop k) := by
  induction lower generalizing k with
  | nil => cases k <;> simp [fitRow]
  | cons c lower ih =>
    cases k with
    | zero => simp [fitRow]
    | succ k =>
      have next : (fitRow p (c :: lower))[k + 1]? = (fitRow p lower)[k]? := by
        simp [fitRow]
      rw [next, ih]
      simp

/-- No way to fill the pattern in has longer `*` from left to right. -/
def Longest (pattern text : Text) (lengths : List Nat) : Prop :=
  ∀ parts, fill pattern parts = some text →
    ¬ List.Lex (· < ·) lengths (starLengths pattern parts)

theorem longest_nil : Longest [] [] [] := by
  intro parts filled longer
  cases longer

theorem longest_one {c : Char} {lengths : List Nat} (rest : Longest p text lengths) :
    Longest ('?' :: p) (c :: text) lengths := by
  intro parts other
  obtain ⟨d, parts', rest', rfl, tail, split⟩ := fill_one_eq_some.mp other
  rw [(List.cons.inj split).2] at tail
  exact rest parts' tail

theorem longest_literal {lengths : List Nat} (star : pc ≠ '*') (one : pc ≠ '?')
    (rest : Longest p text lengths) : Longest (pc :: p) (pc :: text) lengths := by
  intro parts other
  obtain ⟨rest', tail, split⟩ := (fill_literal_eq_some star one).mp other
  rw [(List.cons.inj split).2] at tail
  rw [starLengths, if_neg star, if_neg one]
  exact rest parts tail

/-- The longest part for a `*` that leaves a rest that fits, and the rest likewise. -/
theorem longest_star {part : Text} {lengths : List Nat}
    (longest : ∀ part' rest, part' ++ rest = part ++ text → fits p rest →
      part'.length ≤ part.length)
    (rest : Longest p text lengths) :
    Longest ('*' :: p) (part ++ text) (part.length :: lengths) := by
  intro parts other
  obtain ⟨part', parts', rest', rfl, tail, split⟩ := fill_star_eq_some.mp other
  have shorter := longest part' rest' split (fits_iff_fill.mpr ⟨parts', tail⟩)
  intro longer
  have longer : List.Lex (· < ·) (part.length :: lengths)
      (part'.length :: starLengths p parts') := longer
  -- a longer first part would not leave a rest that fits, and after an equal one the rests agree
  rcases List.cons_lex_cons_iff.mp longer with more | ⟨equal, later⟩
  · exact absurd more (Nat.not_lt_of_le shorter)
  · refine rest parts' ?_ later
    rw [tail, (List.append_inj split equal.symm).2]

private theorem captured_nil : Captured [] [] [] :=
  ⟨rfl, ⟨[], rfl, rfl⟩, ⟨[], rfl, rfl⟩, longest_nil⟩

private theorem captured_one {c : Char} {captures : List Text} (rest : Captured p text captures) :
    Captured ('?' :: p) (c :: text) ([c] :: captures) := by
  obtain ⟨count, ⟨restored, put, lowered⟩, ⟨cased, same, filled⟩, greedy⟩ := rest
  constructor
  · simpa using count
  · refine ⟨c :: restored, fill_one_eq_some.mpr ⟨c, captures, restored, rfl, put, rfl⟩, ?_⟩
    rw [List.map_cons, List.map_cons, lowered]
  · refine ⟨'?' :: cased, ?_, fill_one_eq_some.mpr ⟨c, captures, text, rfl, filled, rfl⟩⟩
    rw [List.map_cons, same]
    rfl
  · exact longest_one greedy

private theorem captured_literal {c : Char} {captures : List Text} (star : c.toLower ≠ '*')
    (one : c.toLower ≠ '?') (rest : Captured p text captures) :
    Captured (c.toLower :: p) (c :: text) captures := by
  obtain ⟨count, ⟨restored, put, lowered⟩, ⟨cased, same, filled⟩, greedy⟩ := rest
  have starCased : c ≠ '*' := by
    rintro rfl
    exact star rfl
  have oneCased : c ≠ '?' := by
    rintro rfl
    exact one rfl
  constructor
  · simpa [star, one] using count
  · refine ⟨c.toLower :: restored, ?_, ?_⟩
    · exact (fill_literal_eq_some star one).mpr ⟨restored, put, rfl⟩
    · rw [List.map_cons, List.map_cons, toLower_toLower, lowered]
  · refine ⟨c :: cased, ?_, ?_⟩
    · rw [List.map_cons, same]
    · exact (fill_literal_eq_some starCased oneCased).mpr ⟨text, filled, rfl⟩
  · rw [starLengths, if_neg star, if_neg one]
    exact longest_literal star one greedy

private theorem captured_star {part : Text} {captures : List Text}
    (longest : ∀ part' rest, part' ++ rest = (part ++ text).map Char.toLower → fits p rest →
      part'.length ≤ part.length)
    (rest : Captured p text captures) :
    Captured ('*' :: p) (part ++ text) (part :: captures) := by
  obtain ⟨count, ⟨restored, put, lowered⟩, ⟨cased, same, filled⟩, greedy⟩ := rest
  constructor
  · simpa using count
  · refine ⟨part ++ restored, ?_, ?_⟩
    · exact fill_star_eq_some.mpr ⟨part, captures, restored, rfl, put, rfl⟩
    · rw [List.map_append, List.map_append, lowered]
  · refine ⟨'*' :: cased, ?_, ?_⟩
    · rw [List.map_cons, same]
      rfl
    · exact fill_star_eq_some.mpr ⟨part, captures, text, rfl, filled, rfl⟩
  · rw [List.map_append] at longest ⊢
    rw [← @List.length_map _ _ part Char.toLower] at longest
    have whole := longest_star longest greedy
    rwa [List.length_map] at whole

/-- A suffix that fits after a `*` is one of those that the row shows. -/
theorem bestEnd_of_fits {lower : Text} {j : Nat} (inside : j ≤ lower.length)
    (fit : fits ('*' :: p) (lower.drop j)) :
    j ≤ bestEnd (fitRow p lower) j ∧ bestEnd (fitRow p lower) j ≤ lower.length ∧
      fits p (lower.drop (bestEnd (fitRow p lower) j)) ∧
      ∀ part rest, part ++ rest = lower.drop j → fits p rest →
        j + part.length ≤ bestEnd (fitRow p lower) j := by
  have shown {part rest : Text} (split : part ++ rest = lower.drop j) (fit : fits p rest) :
      (fitRow p lower)[j + part.length]? = some true := by
    have place : rest = lower.drop (j + part.length) := by
      rw [← List.drop_drop, ← split, List.drop_left]
    have few := congrArg List.length split
    rw [List.length_append, List.length_drop] at few
    refine getElem?_fitRow.mpr ⟨by omega, ?_⟩
    rw [← place]
    exact fit
  obtain ⟨rest, ⟨part, split⟩, fit⟩ := fits_star.mp fit
  obtain ⟨from_, set_⟩ := bestEnd_set (Nat.le_add_right _ _) (shown split fit)
  obtain ⟨within, fit⟩ := getElem?_fitRow.mp set_
  refine ⟨from_, within, fit, fun part rest split fit => ?_⟩
  exact (bestEnd_spec (fitRow p lower) j).2 _ (Nat.le_add_right _ _) (shown split fit)

theorem drop_take_append {text : Text} {j k : Nat} (from_ : j ≤ k) :
    (text.take k).drop j ++ text.drop k = text.drop j := by
  have rest : text.drop k = (text.drop j).drop (k - j) := by
    rw [List.drop_drop, Nat.add_sub_cancel' from_]
  rw [List.drop_take, rest, List.take_append_drop]

/-- The character of the text that was lowered to the next one. -/
theorem drop_of_lowered {text rest : Text} {j : Nat} {c : Char}
    (suffix : (text.map Char.toLower).drop j = c :: rest) :
    ∃ d, d.toLower = c ∧ text.drop j = d :: text.drop (j + 1) ∧
      rest = (text.map Char.toLower).drop (j + 1) ∧ j + 1 ≤ text.length := by
  rw [← List.map_drop] at suffix
  obtain ⟨d, tail, first, lowered, rest'⟩ := List.map_eq_cons_iff.mp suffix
  have after : text.drop (j + 1) = tail := by
    rw [← List.tail_drop, first, List.tail_cons]
  have within : j < text.length := by
    apply Nat.lt_of_not_le
    intro past
    rw [List.drop_of_length_le past] at first
    cases first
  refine ⟨d, lowered, ?_, ?_, within⟩
  · rw [after]
    exact first
  · rw [← List.map_drop, after]
    exact rest'.symm

/-- From a suffix that fits, the walk goes through without a slice past the end. -/
theorem captures_of_fits {text : Text} {j : Nat} (inside : j ≤ text.length)
    (fit : fits p ((text.map Char.toLower).drop j)) :
    ∃ found, captures text p (fitTable (text.map Char.toLower) p).tail j = some found ∧
      Captured p (text.drop j) found := by
  have lowered (k : Nat) : (text.map Char.toLower).drop k = (text.drop k).map Char.toLower :=
    List.map_drop.symm
  -- what is left of the pattern fits what is left of the text wherever the walk has come
  induction p generalizing j with
  | nil =>
    refine ⟨[], rfl, ?_⟩
    have done : text.drop j = [] := by
      rw [lowered] at fit
      simpa [fits] using fit
    rw [done]
    exact captured_nil
  | cons pc p ih =>
    -- the rows that the walk has left start below the current one
    rw [tail_fitTable, captures]
    by_cases star : pc = '*'
    · subst star
      rw [if_pos rfl, headD_fitTable]
      have span := bestEnd_of_fits (by rw [List.length_map]; exact inside) fit
      dsimp only
      generalize bestEnd (fitRow p (text.map Char.toLower)) j = best at span ⊢
      obtain ⟨from_, within, fit, longest⟩ := span
      rw [List.length_map] at within
      obtain ⟨found, walked, captured⟩ := ih within fit
      rw [if_pos within, walked]
      refine ⟨_, rfl, ?_⟩
      rw [← drop_take_append from_]
      refine captured_star (fun part rest split fit => ?_) captured
      rw [drop_take_append from_, ← lowered] at split
      have short := longest part rest split fit
      rw [List.length_drop, List.length_take, Nat.min_eq_left within]
      omega
    · by_cases one : pc = '?'
      · subst one
        obtain ⟨c, rest, suffix, fit⟩ := fits_one.mp fit
        obtain ⟨d, -, first, rfl, within⟩ := drop_of_lowered suffix
        obtain ⟨found, walked, captured⟩ := ih within fit
        rw [if_neg star, if_pos rfl, if_pos within, walked]
        refine ⟨_, rfl, ?_⟩
        have slice : (text.take (j + 1)).drop j = [d] := by
          rw [List.drop_take, Nat.add_sub_cancel_left, first]
          rfl
        rw [slice, first]
        exact captured_one captured
      · obtain ⟨rest, suffix, fit⟩ := (fits_literal star one).mp fit
        obtain ⟨d, rfl, first, rfl, within⟩ := drop_of_lowered suffix
        obtain ⟨found, walked, captured⟩ := ih within fit
        rw [if_neg star, if_neg one, first]
        exact ⟨found, walked, captured_literal star one captured⟩

/-! ### The whole match -/

theorem matchHost_eq {toLowercase : Text → Text} {hostname : Text} (self : HostPattern)
    (short : (trimEndMatches (· = '.') hostname).length ≤ 255) :
    self.matchHost toLowercase hostname =
      let text := trimEndMatches (· = '.') hostname
      if fits self.pattern (toLowercase text) then
        (captures text self.pattern (fitTable (toLowercase text) self.pattern).tail 0).map some
      else some none := by
  rw [matchHost]
  dsimp only
  rw [if_neg (Nat.not_lt_of_le short), dpTable_eq, headD_fitTable, headD_fitRow]

/-- A short ASCII hostname matches exactly if it is the pattern filled in, up to case and
trailing dots. Then the captures are the greediest way to fill it in, and the walk that finds
them does not panic. -/
theorem matchHost_spec (toLowercase : Text → Text)
    (lowers : ∀ text : Text, (∀ c ∈ text, c.toNat < 128) →
      toLowercase text = text.map Char.toLower)
    (raw hostname : Text) (ascii : ∀ c ∈ hostname, c.toNat < 128)
    (short : (trimEndMatches (· = '.') hostname).length ≤ 255) :
    ∃ found : Option (List Text),
      (new toLowercase raw).matchHost toLowercase hostname = some found ∧
      (found.isSome ↔ ∃ parts, fill (new toLowercase raw).pattern parts =
        some ((trimEndMatches (· = '.') hostname).map Char.toLower)) ∧
      ∀ captures ∈ found, captures.length = (new toLowercase raw).wildcardCount ∧
        Captured (new toLowercase raw).pattern (trimEndMatches (· = '.') hostname) captures := by
  -- lowercasing ASCII text keeps each character's place, so no slice is out of range
  have lowered : toLowercase (trimEndMatches (· = '.') hostname) =
      (trimEndMatches (· = '.') hostname).map Char.toLower :=
    lowers _ fun c member => ascii c ((List.rdropWhile_prefix _ _).subset member)
  rw [matchHost_eq _ short]
  dsimp only
  rw [lowered]
  generalize trimEndMatches (· = '.') hostname = text
  by_cases fit : fits (new toLowercase raw).pattern (text.map Char.toLower)
  · obtain ⟨found, walked, captured⟩ :=
      captures_of_fits (Nat.zero_le text.length) (by simpa using fit)
    rw [if_pos fit, walked]
    refine ⟨some found, rfl, iff_of_true rfl (fits_iff_fill.mp fit), ?_⟩
    rintro _ ⟨⟩
    exact ⟨captured.count, captured⟩
  · rw [if_neg fit]
    refine ⟨none, rfl, iff_of_false Bool.false_ne_true fun filled => ?_, ?_⟩
    · exact fit (fits_iff_fill.mpr filled)
    · rintro _ ⟨⟩

/-- Two `*` and a `?`: the first `*` takes what it can, and the case is kept. -/
theorem matchHost_spec_greedy :
    ∃ found : Option (List Text),
      (new (List.map Char.toLower) "*-?*.Example.com.".toList).matchHost (List.map Char.toLower)
        "EU-a-1b.example.COM.".toList = some found ∧
      (found.isSome ↔ ∃ parts,
        fill (new (List.map Char.toLower) "*-?*.Example.com.".toList).pattern parts =
          some "eu-a-1b.example.com".toList) ∧
      ∀ captures ∈ found, captures.length = 3 ∧
        Captured "*-?*.example.com".toList "EU-a-1b.example.COM".toList captures := by
  have ascii : ("EU-a-1b.example.COM.".toList.all fun c => c.toNat < 128) = true := by decide
  exact matchHost_spec (List.map Char.toLower) (fun _ _ => rfl) "*-?*.Example.com.".toList
    "EU-a-1b.example.COM.".toList
    (fun c member => of_decide_eq_true (List.all_eq_true.mp ascii c member)) (by decide)

end MCGate.HostPattern
