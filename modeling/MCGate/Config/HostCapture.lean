import Mathlib.Data.List.Lex
import MCGate.Config.HostMatch

/-!
# Where a capture comes from

`match_host` finds the wildcards' parts in the lowercased hostname and cuts the captures out of
the original one, at the same places. Lowercasing can turn one character into several, and
after such a character the places are no longer the same.
-/
namespace MCGate

/-- `str::to_lowercase`: the characters that each character turns into. Which ones may depend
on the text around it. -/
structure Lowercase where
  pieces : Text → List Text
  length_pieces : ∀ text, (pieces text).length = text.length
  ne_nil : ∀ text, ∀ piece ∈ pieces text, piece ≠ []

def Lowercase.toLowercase (lowercase : Lowercase) (text : Text) : Text :=
  (lowercase.pieces text).flatten

/-- Character by character, with the one capital that turns into two characters: the dotted İ
becomes an i and a dot above. -/
def dottedLowercase : Lowercase where
  pieces text := text.map fun c => if c = '\u0130' then ['i', '\u0307'] else [c.toLower]
  length_pieces text := List.length_map _
  ne_nil text piece member := by
    obtain ⟨c, -, rfl⟩ := List.mem_map.mp member
    split
    · exact List.cons_ne_nil _ _
    · exact List.cons_ne_nil _ _

namespace HostPattern

/-- For each lowercased character the place of the one that it comes from, where the first
piece is that of the character at `i`. -/
def origins : (i : Nat) → List Text → List Nat
  | _, [] => []
  | i, piece :: pieces => List.replicate piece.length i ++ origins (i + 1) pieces

/-- Where the parts of a filled in pattern stand, from `j` on: start and end of each. -/
def partSpans : (j : Nat) → Text → List Text → List (Nat × Nat)
  | _, [], _ => []
  | j, pc :: p, parts =>
    if pc = '*' ∨ pc = '?' then
      (j, j + (parts.headD []).length) :: partSpans (j + (parts.headD []).length) p parts.tail
    else partSpans (j + 1) p parts

/-- How many literals follow the pattern's last wildcard, if there is one. -/
def literalsAfterLast : Text → Option Nat
  | [] => none
  | pc :: p =>
    match literalsAfterLast p with
    | some n => some n
    | none => if pc = '*' ∨ pc = '?' then some p.length else none

/-- Lowercasing adds no more characters than the pattern has after its last wildcard. -/
def Room (pattern lowered text : Text) : Prop :=
  ∀ n, literalsAfterLast pattern = some n → lowered.length ≤ text.length + n

section Cut

variable {α : Type}

def cut (l : List α) (span : Nat × Nat) : List α := (l.take span.2).drop span.1

/-- A slice past the end panics. -/
def slice (l : List α) (span : Nat × Nat) : Option (List α) :=
  if span.2 ≤ l.length then some (cut l span) else none

private theorem mapM_slice_cons (l : List α) (span : Nat × Nat) (spans : List (Nat × Nat)) :
    (span :: spans).mapM (slice l) =
      if span.2 ≤ l.length then (spans.mapM (slice l)).map (cut l span :: ·) else none := by
  rw [List.mapM_cons, slice]
  split
  · cases spans.mapM (slice l) <;> rfl
  · rfl

private theorem mapM_slice_eq_some {l : List α} {spans : List (Nat × Nat)} {cuts : List (List α)} :
    spans.mapM (slice l) = some cuts ↔
      (∀ span ∈ spans, span.2 ≤ l.length) ∧ cuts = spans.map (cut l) := by
  induction spans generalizing cuts with
  | nil => simp [eq_comm]
  | cons span spans ih =>
    rw [mapM_slice_cons, List.forall_mem_cons]
    by_cases inside : span.2 ≤ l.length
    · rw [if_pos inside, Option.map_eq_some_iff]
      constructor
      · rintro ⟨rest, later, rfl⟩
        obtain ⟨all, rfl⟩ := ih.mp later
        exact ⟨⟨inside, all⟩, rfl⟩
      · rintro ⟨⟨-, all⟩, rfl⟩
        exact ⟨_, ih.mpr ⟨all, rfl⟩, rfl⟩
    · rw [if_neg inside]
      constructor
      · rintro ⟨⟩
      · rintro ⟨⟨within, -⟩, -⟩
        exact absurd within inside

private theorem drop_eq_cons {l rest : List α} {j : Nat} {a : α} (suffix : l.drop j = a :: rest) :
    j < l.length ∧ l.drop (j + 1) = rest := by
  constructor
  · apply Nat.lt_of_not_le
    intro past
    rw [List.drop_of_length_le past] at suffix
    cases suffix
  · rw [← List.tail_drop, suffix, List.tail_cons]

end Cut

/-- The parts fill the pattern in, and no others have longer `*` from left to right. -/
structure Greediest (pattern lowered : Text) (parts : List Text) : Prop where
  fills : fill pattern parts = some lowered
  longest : Longest pattern lowered (starLengths pattern parts)

/-- What stands in the span of the lowercased text comes from what stands in the same span of
the text, and from nothing else. -/
def CameFrom (pieces : List Text) (span : Nat × Nat) : Prop :=
  ∀ x, x ∈ cut (origins 0 pieces) span ↔ span.1 ≤ x ∧ x < span.2

/-- A match does not panic, and the captures are cut out of the hostname where the wildcards'
parts of the lowercased text came from. -/
def CapturesAligned (lowercase : Lowercase) (self : HostPattern) (hostname : Text) : Prop :=
  ∃ found, self.matchHost lowercase.toLowercase hostname = some found ∧
    ∀ captures, found = some captures →
      ∃ parts, Greediest self.pattern
          (lowercase.toLowercase (trimEndMatches (· = '.') hostname)) parts ∧
        parts = (partSpans 0 self.pattern parts).map
          (cut (lowercase.toLowercase (trimEndMatches (· = '.') hostname))) ∧
        captures = (partSpans 0 self.pattern parts).map
          (cut (trimEndMatches (· = '.') hostname)) ∧
        ∀ span ∈ partSpans 0 self.pattern parts,
          CameFrom (lowercase.pieces (trimEndMatches (· = '.') hostname)) span

variable {pc : Char} {p lowered : Text} {parts parts' : List Text}

/-! ### The greediest parts -/

private theorem greediest_nil : Greediest [] [] [] := ⟨rfl, longest_nil⟩

theorem Greediest.one {c : Char} (rest : Greediest p lowered parts) :
    Greediest ('?' :: p) (c :: lowered) ([c] :: parts) :=
  ⟨fill_one_eq_some.mpr ⟨c, parts, lowered, rfl, rest.fills, rfl⟩, longest_one rest.longest⟩

theorem Greediest.literal (star : pc ≠ '*') (one : pc ≠ '?') (rest : Greediest p lowered parts) :
    Greediest (pc :: p) (pc :: lowered) parts := by
  constructor
  · exact (fill_literal_eq_some star one).mpr ⟨lowered, rest.fills, rfl⟩
  · rw [starLengths, if_neg star, if_neg one]
    exact longest_literal star one rest.longest

theorem Greediest.star {part : Text}
    (longest : ∀ part' rest, part' ++ rest = part ++ lowered → fits p rest →
      part'.length ≤ part.length)
    (rest : Greediest p lowered parts) :
    Greediest ('*' :: p) (part ++ lowered) (part :: parts) :=
  ⟨fill_star_eq_some.mpr ⟨part, parts, lowered, rfl, rest.fills, rfl⟩,
    longest_star longest rest.longest⟩

/-- The lengths of the `*` leave one way to fill a pattern in. -/
theorem fill_unique (fills : fill p parts = some lowered) (fills' : fill p parts' = some lowered)
    (lengths : starLengths p parts = starLengths p parts') : parts = parts' := by
  induction p generalizing parts parts' lowered with
  | nil => rw [(fill_nil_eq_some.mp fills).1, (fill_nil_eq_some.mp fills').1]
  | cons pc p ih =>
    by_cases star : pc = '*'
    · subst star
      obtain ⟨part, parts, rest, rfl, tail, split⟩ := fill_star_eq_some.mp fills
      obtain ⟨part', parts', rest', rfl, tail', split'⟩ := fill_star_eq_some.mp fills'
      obtain ⟨first, later⟩ := List.cons.inj lengths
      obtain ⟨rfl, rfl⟩ := List.append_inj (split.trans split'.symm) first
      rw [ih tail tail' later]
    · by_cases one : pc = '?'
      · subst one
        obtain ⟨c, parts, rest, rfl, tail, rfl⟩ := fill_one_eq_some.mp fills
        obtain ⟨c', parts', rest', rfl, tail', split⟩ := fill_one_eq_some.mp fills'
        obtain ⟨rfl, rfl⟩ := List.cons.inj split
        rw [ih tail tail' lengths]
      · obtain ⟨rest, tail, rfl⟩ := (fill_literal_eq_some star one).mp fills
        obtain ⟨rest', tail', split⟩ := (fill_literal_eq_some star one).mp fills'
        obtain rfl := (List.cons.inj split).2
        rw [starLengths, starLengths, if_neg star, if_neg one, if_neg star, if_neg one] at lengths
        exact ih tail tail' lengths

theorem Greediest.unique (greediest : Greediest p lowered parts)
    (greediest' : Greediest p lowered parts') : parts = parts' :=
  fill_unique greediest.fills greediest'.fills (Std.Trichotomous.trichotomous _ _
    (greediest.longest parts' greediest'.fills) (greediest'.longest parts greediest.fills))

/-! ### The walk, whatever lowercasing does -/

private theorem partSpans_cons (wild : pc = '*' ∨ pc = '?') (j : Nat) (part : Text) :
    partSpans j (pc :: p) (part :: parts) =
      (j, j + part.length) :: partSpans (j + part.length) p parts := by
  rw [partSpans, if_pos wild, List.headD_cons, List.tail_cons]

private theorem partSpans_literal (star : pc ≠ '*') (one : pc ≠ '?') (j : Nat) :
    partSpans j (pc :: p) parts = partSpans (j + 1) p parts := by
  rw [partSpans, if_neg (not_or.mpr ⟨star, one⟩)]

/-- From a suffix that fits, the walk slices at the spans of the greediest parts. -/
theorem captures_eq {text : Text} {j : Nat} (inside : j ≤ lowered.length)
    (fit : fits p (lowered.drop j)) :
    ∃ parts, Greediest p (lowered.drop j) parts ∧
      captures text p (fitTable lowered p).tail j = (partSpans j p parts).mapM (slice text) := by
  -- what is left of the pattern fits what is left of the text wherever the walk has come
  induction p generalizing j with
  | nil =>
    have done : lowered.drop j = [] := by simpa [fits] using fit
    rw [done]
    exact ⟨[], greediest_nil, rfl⟩
  | cons pc p ih =>
    rw [tail_fitTable, captures]
    by_cases star : pc = '*'
    · subst star
      rw [if_pos rfl, headD_fitTable]
      have span := bestEnd_of_fits inside fit
      dsimp only
      generalize bestEnd (fitRow p lowered) j = best at span ⊢
      obtain ⟨from_, within, fit, longest⟩ := span
      obtain ⟨parts, greediest, walked⟩ := ih within fit
      have long : ((lowered.take best).drop j).length = best - j := by
        rw [List.length_drop, List.length_take, Nat.min_eq_left within]
      refine ⟨(lowered.take best).drop j :: parts, ?_, ?_⟩
      · rw [← drop_take_append from_]
        apply Greediest.star _ greediest
        intro part rest split fit
        rw [drop_take_append from_] at split
        have short := longest part rest split fit
        omega
      · rw [partSpans_cons (Or.inl rfl), long, Nat.add_sub_cancel' from_, mapM_slice_cons, walked]
        rfl
    · by_cases one : pc = '?'
      · subst one
        obtain ⟨c, rest, suffix, fit⟩ := fits_one.mp fit
        obtain ⟨within, rfl⟩ := drop_eq_cons suffix
        obtain ⟨parts, greediest, walked⟩ := ih within fit
        refine ⟨[c] :: parts, ?_, ?_⟩
        · rw [suffix]
          exact greediest.one
        · rw [if_neg star, if_pos rfl, partSpans_cons (Or.inr rfl), List.length_singleton,
            mapM_slice_cons, walked]
          rfl
      · obtain ⟨rest, suffix, fit⟩ := (fits_literal star one).mp fit
        obtain ⟨within, rfl⟩ := drop_eq_cons suffix
        obtain ⟨parts, greediest, walked⟩ := ih within fit
        refine ⟨parts, ?_, ?_⟩
        · rw [suffix]
          exact greediest.literal star one
        · rw [if_neg star, if_neg one, walked, partSpans_literal star one]

/-- A wildcard's part stands in front of what the rest of the pattern gives. -/
theorem fill_wild {text : Text} (wild : pc = '*' ∨ pc = '?')
    (fills : fill (pc :: p) parts = some text) :
    ∃ part parts', parts = part :: parts' ∧ text.take part.length = part ∧
      fill p parts' = some (text.drop part.length) ∧ part.length ≤ text.length := by
  rcases wild with rfl | rfl
  · obtain ⟨part, parts', rest, rfl, tail, rfl⟩ := fill_star_eq_some.mp fills
    rw [List.length_append]
    exact ⟨part, parts', rfl, List.take_left, by rw [List.drop_left, tail], by omega⟩
  · obtain ⟨c, parts', rest, rfl, tail, rfl⟩ := fill_one_eq_some.mp fills
    exact ⟨[c], parts', rfl, rfl, tail, Nat.le_add_left 1 rest.length⟩

/-- The spans stand where the parts do. -/
theorem cut_partSpans {j : Nat} (inside : j ≤ lowered.length)
    (fills : fill p parts = some (lowered.drop j)) :
    (partSpans j p parts).map (cut lowered) = parts := by
  induction p generalizing j parts with
  | nil =>
    obtain ⟨rfl, -⟩ := fill_nil_eq_some.mp fills
    rfl
  | cons pc p ih =>
    by_cases wild : pc = '*' ∨ pc = '?'
    · obtain ⟨part, parts, rfl, here, tail, short⟩ := fill_wild wild fills
      rw [List.length_drop] at short
      rw [List.drop_drop] at tail
      rw [partSpans_cons wild, List.map_cons, ih (by omega) tail, cut, List.drop_take,
        Nat.add_sub_cancel_left, here]
    · obtain ⟨star, one⟩ := not_or.mp wild
      obtain ⟨rest, tail, split⟩ := (fill_literal_eq_some star one).mp fills
      obtain ⟨within, rfl⟩ := drop_eq_cons split.symm
      rw [partSpans_literal star one, ih within tail]

/-- Without wildcards the pattern is the text. -/
theorem length_of_no_wildcard {text : Text} (none_ : literalsAfterLast p = none)
    (fills : fill p parts = some text) :
    text.length = p.length ∧ ∀ j, partSpans j p parts = [] := by
  induction p generalizing parts text with
  | nil =>
    obtain ⟨-, rfl⟩ := fill_nil_eq_some.mp fills
    exact ⟨rfl, fun _ => rfl⟩
  | cons pc p ih =>
    rw [literalsAfterLast] at none_
    split at none_
    · cases none_
    next tail =>
      split_ifs at none_ with wild
      obtain ⟨star, one⟩ := not_or.mp wild
      obtain ⟨rest, filled, rfl⟩ := (fill_literal_eq_some star one).mp fills
      obtain ⟨same, spans⟩ := ih tail filled
      refine ⟨congrArg (· + 1) same, fun j => ?_⟩
      rw [partSpans_literal star one, spans]

/-- What follows the last wildcard is in the text. -/
theorem literalsAfterLast_le {text : Text} {n : Nat} (after : literalsAfterLast p = some n)
    (fills : fill p parts = some text) : n ≤ text.length := by
  induction p generalizing parts text with
  | nil => cases after
  | cons pc p ih =>
    by_cases wild : pc = '*' ∨ pc = '?'
    · obtain ⟨part, parts, rfl, -, tail, short⟩ := fill_wild wild fills
      rw [literalsAfterLast] at after
      have later : n ≤ (text.drop part.length).length := by
        split at after
        next found =>
          cases after
          exact ih found tail
        next none_ =>
          rw [if_pos wild, Option.some.injEq] at after
          rw [(length_of_no_wildcard none_ tail).1, after]
      rw [List.length_drop] at later
      omega
    · obtain ⟨star, one⟩ := not_or.mp wild
      obtain ⟨rest, tail, rfl⟩ := (fill_literal_eq_some star one).mp fills
      rw [literalsAfterLast, if_neg wild] at after
      split at after
      next found =>
        cases after
        exact Nat.le_succ_of_le (ih found tail)
      next => cases after

/-- All spans end within `n` characters exactly if the last one does. -/
theorem partSpans_within_iff {j n : Nat} (inside : j ≤ lowered.length)
    (fills : fill p parts = some (lowered.drop j)) :
    (∀ span ∈ partSpans j p parts, span.2 ≤ n) ↔
      ∀ k, literalsAfterLast p = some k → lowered.length ≤ n + k := by
  induction p generalizing j parts with
  | nil => simp [partSpans, literalsAfterLast]
  | cons pc p ih =>
    by_cases wild : pc = '*' ∨ pc = '?'
    · obtain ⟨part, parts, rfl, -, tail, short⟩ := fill_wild wild fills
      rw [List.length_drop] at short
      rw [List.drop_drop] at tail
      rw [partSpans_cons wild, List.forall_mem_cons, ih (by omega) tail, literalsAfterLast]
      cases after : literalsAfterLast p with
      -- a later wildcard ends later
      | some k =>
        have room := literalsAfterLast_le after tail
        rw [List.length_drop] at room
        simp only [Option.some.injEq, forall_eq']
        omega
      -- this is the last wildcard, and only literals follow it
      | none =>
        have same := (length_of_no_wildcard after tail).1
        rw [List.length_drop] at same
        simp only [wild, if_true, Option.some.injEq, forall_eq', reduceCtorEq, false_implies,
          implies_true, and_true]
        omega
    · obtain ⟨star, one⟩ := not_or.mp wild
      obtain ⟨rest, tail, split⟩ := (fill_literal_eq_some star one).mp fills
      obtain ⟨within, rfl⟩ := drop_eq_cons split.symm
      rw [partSpans_literal star one, ih within tail, literalsAfterLast, if_neg wild]
      cases literalsAfterLast p <;> rfl

/-! ### Places -/

/-- What comes from the character at `x` stands behind the pieces of the characters before. -/
theorem mem_take_origins {pieces : List Text} {i k x : Nat}
    (member : x ∈ (origins i pieces).take k) :
    i ≤ x ∧ x < i + pieces.length ∧ (pieces.take (x - i)).flatten.length < k := by
  induction pieces generalizing i k with
  | nil => simp [origins] at member
  | cons piece pieces ih =>
    rw [origins, List.take_append, List.length_replicate] at member
    -- it comes from the first piece, or from a later one that stands behind it
    rcases List.mem_append.mp member with here | later
    · rw [List.take_replicate] at here
      obtain ⟨some, rfl⟩ := List.mem_replicate.mp here
      have positive : 0 < k := by omega
      simpa using positive
    · obtain ⟨from_, below, before⟩ := ih later
      rw [List.length_cons]
      obtain ⟨y, rfl⟩ : ∃ y, x = i + 1 + y := ⟨x - (i + 1), by omega⟩
      rw [Nat.add_sub_cancel_left] at before
      rw [show i + 1 + y - i = y + 1 by omega, List.take_succ_cons, List.flatten_cons,
        List.length_append]
      omega

private theorem length_flatten_ge {pieces : List Text} (some : ∀ piece ∈ pieces, piece ≠ []) :
    pieces.length ≤ pieces.flatten.length := by
  induction pieces with
  | nil => exact Nat.le_refl 0
  | cons piece pieces ih =>
    obtain ⟨here, later⟩ := List.forall_mem_cons.mp some
    have first := List.length_pos_iff.mpr here
    have rest := ih later
    rw [List.length_cons, List.flatten_cons, List.length_append]
    omega

/-- Pieces that are no more characters than pieces are single characters. -/
theorem single_of_length {pieces : List Text} (some : ∀ piece ∈ pieces, piece ≠ [])
    (few : pieces.flatten.length ≤ pieces.length) : ∀ piece ∈ pieces, piece.length = 1 := by
  induction pieces with
  | nil => simp
  | cons piece pieces ih =>
    obtain ⟨here, later⟩ := List.forall_mem_cons.mp some
    have first := List.length_pos_iff.mpr here
    have rest := length_flatten_ge later
    rw [List.length_cons, List.flatten_cons, List.length_append] at few
    exact List.forall_mem_cons.mpr ⟨by omega, ih later (by omega)⟩

private theorem origins_append (i : Nat) (front back : List Text) :
    origins i (front ++ back) = origins i front ++ origins (i + front.length) back := by
  induction front generalizing i with
  | nil => rfl
  | cons piece front ih =>
    rw [List.cons_append, origins, origins, ih, List.append_assoc, List.length_cons]
    congr 3
    omega

private theorem origins_single {pieces : List Text} (single : ∀ piece ∈ pieces, piece.length = 1)
    (i : Nat) : origins i pieces = List.range' i pieces.length := by
  induction pieces generalizing i with
  | nil => rfl
  | cons piece pieces ih =>
    obtain ⟨here, later⟩ := List.forall_mem_cons.mp single
    rw [origins, here, ih later, List.length_cons, List.range'_succ]
    rfl

/-- Places are kept up to `k` exactly if all characters before the last one turn into one. -/
theorem take_origins {pieces : List Text} {k : Nat} (some : ∀ piece ∈ pieces, piece ≠ [])
    (inside : k + 1 ≤ pieces.length) (single : ∀ piece ∈ pieces.take k, piece.length = 1) :
    (origins 0 pieces).take (k + 1) = List.range (k + 1) := by
  obtain ⟨piece, rest, last⟩ := List.exists_cons_of_ne_nil
    (List.ne_nil_of_length_pos (by rw [List.length_drop]; omega : 0 < (pieces.drop k).length))
  have member : piece ∈ pieces := List.mem_of_mem_drop (last ▸ List.mem_cons_self)
  obtain ⟨c, piece, rfl⟩ := List.exists_cons_of_ne_nil (some piece member)
  have front : (pieces.take k).length = k := by
    rw [List.length_take]
    omega
  have before : origins 0 (pieces.take k) = List.range k := by
    rw [origins_single single, front, List.range_eq_range']
  rw [← List.take_append_drop k pieces, origins_append, before, front, last, origins,
    List.length_cons, List.replicate_succ, List.cons_append, List.range_succ, Nat.zero_add,
    List.take_append, List.length_range, Nat.add_sub_cancel_left,
    List.take_of_length_le (by rw [List.length_range]; omega)]
  rfl

/-- In a span with something in it, places are kept exactly if all characters before the last
one in it turn into one. -/
theorem cameFrom_iff {pieces : List Text} {j k : Nat} (some : ∀ piece ∈ pieces, piece ≠ [])
    (inside : k ≤ pieces.length) :
    CameFrom pieces (j, k) ↔ (j < k → ∀ piece ∈ pieces.take (k - 1), piece.length = 1) := by
  constructor
  · intro came more
    -- the last character in the span comes from the last place in it
    have last : k - 1 ∈ (origins 0 pieces).take k :=
      List.mem_of_mem_drop ((came (k - 1)).mpr ⟨by dsimp only; omega, by dsimp only; omega⟩)
    obtain ⟨-, -, before⟩ := mem_take_origins last
    rw [Nat.sub_zero] at before
    refine single_of_length (fun piece member => some piece (List.mem_of_mem_take member)) ?_
    rw [List.length_take]
    omega
  · intro single x
    by_cases more : j < k
    · obtain ⟨k, rfl⟩ : ∃ n, k = n + 1 := ⟨k - 1, by omega⟩
      rw [cut, take_origins some inside (single more), List.range_eq_range', List.drop_range',
        List.mem_range'_1]
      dsimp only
      omega
    · simp only [cut]
      rw [List.drop_eq_nil_of_le (by rw [List.length_take]; omega)]
      constructor
      · intro member
        cases member
      · rintro ⟨from_, below⟩
        exact absurd (Nat.lt_of_le_of_lt from_ below) more

/-! ### The whole match -/

section

variable (toLowercase : Text → Text) (hostname : Text) (self : HostPattern)

/-- The lowercased hostname is the pattern filled in. -/
def Matches : Prop :=
  (trimEndMatches (· = '.') hostname).length ≤ 255 ∧
    ∃ parts, fill self.pattern parts = some (toLowercase (trimEndMatches (· = '.') hostname))

/-- No slice of a match goes past the end of the hostname. -/
def Sliceable : Prop :=
  Room self.pattern (toLowercase (trimEndMatches (· = '.') hostname))
    (trimEndMatches (· = '.') hostname)

end

variable {toLowercase : Text → Text} {hostname : Text} {self : HostPattern}

/-- A match slices at the spans of the greediest parts. -/
theorem matchHost_of_matches (matches_ : Matches toLowercase hostname self) :
    ∃ parts, Greediest self.pattern (toLowercase (trimEndMatches (· = '.') hostname)) parts ∧
      self.matchHost toLowercase hostname = ((partSpans 0 self.pattern parts).mapM
        (slice (trimEndMatches (· = '.') hostname))).map some := by
  obtain ⟨short, filled⟩ := matches_
  have fit := fits_iff_fill.mpr filled
  rw [matchHost_eq self short]
  dsimp only
  rw [if_pos fit]
  generalize trimEndMatches (· = '.') hostname = text at fit ⊢
  obtain ⟨parts, greediest, walked⟩ := @captures_eq self.pattern (toLowercase text) text 0
    (Nat.zero_le _) fit
  exact ⟨parts, greediest, by rw [walked]⟩

theorem matchHost_of_not_matches (other : ¬ Matches toLowercase hostname self) :
    self.matchHost toLowercase hostname = some none := by
  by_cases short : (trimEndMatches (· = '.') hostname).length ≤ 255
  · rw [matchHost_eq self short]
    apply if_neg
    rw [fits_iff_fill]
    exact fun filled => other ⟨short, filled⟩
  · rw [matchHost]
    exact if_pos (Nat.lt_of_not_le short)

private theorem sliceable_iff {parts : List Text}
    (greediest : Greediest self.pattern
      (toLowercase (trimEndMatches (· = '.') hostname)) parts) :
    (∀ span ∈ partSpans 0 self.pattern parts,
      span.2 ≤ (trimEndMatches (· = '.') hostname).length) ↔ Sliceable toLowercase hostname self :=
  partSpans_within_iff (Nat.zero_le _) greediest.fills

/-- Exactly then no capture is cut out of a wrong place, or past the end: the hostname does not
match, or lowercasing adds no more characters than the pattern has after its last wildcard,
and for each wildcard's part of the lowercased hostname that has something in it, all
characters of the hostname before the last one in its span turn into one. -/
theorem capturesAligned_iff (lowercase : Lowercase) (self : HostPattern) (hostname : Text) :
    CapturesAligned lowercase self hostname ↔
      (Matches lowercase.toLowercase hostname self →
        Sliceable lowercase.toLowercase hostname self ∧
        ∀ parts, Greediest self.pattern
            (lowercase.toLowercase (trimEndMatches (· = '.') hostname)) parts →
          ∀ span ∈ partSpans 0 self.pattern parts, span.1 < span.2 →
            ∀ piece ∈ (lowercase.pieces (trimEndMatches (· = '.') hostname)).take (span.2 - 1),
              piece.length = 1) := by
  by_cases matches_ : Matches lowercase.toLowercase hostname self
  · obtain ⟨parts, greediest, walked⟩ := matchHost_of_matches matches_
    have within := sliceable_iff greediest
    rw [CapturesAligned, walked, forall_prop_of_true matches_, ← within]
    generalize trimEndMatches (· = '.') hostname = text at greediest ⊢
    have came {span : Nat × Nat} := @cameFrom_iff (lowercase.pieces text) span.1 span.2
      (lowercase.ne_nil text)
    rw [lowercase.length_pieces] at came
    constructor
    · rintro ⟨found, returned, aligned⟩
      obtain ⟨captures, slices, rfl⟩ := Option.map_eq_some_iff.mp returned
      obtain ⟨inside, -⟩ := mapM_slice_eq_some.mp slices
      obtain ⟨parts', greediest', -, -, places⟩ := aligned captures rfl
      -- there is one greediest match, so the captures are those of `parts`
      obtain rfl := greediest.unique greediest'
      refine ⟨inside, fun parts' greediest' span member => ?_⟩
      obtain rfl := greediest.unique greediest'
      exact (came (inside span member)).mp (places span member)
    · rintro ⟨inside, single⟩
      have slices := mapM_slice_eq_some.mpr ⟨inside, rfl⟩
      refine ⟨_, by rw [slices]; rfl, ?_⟩
      rintro captures ⟨⟩
      refine ⟨parts, greediest, (cut_partSpans (Nat.zero_le _) greediest.fills).symm, rfl, ?_⟩
      intro span member
      exact (came (inside span member)).mpr (single parts greediest span member)
  · apply iff_of_true
    · refine ⟨none, matchHost_of_not_matches matches_, ?_⟩
      rintro captures ⟨⟩
    · exact fun match_ => absurd match_ matches_

/-- A host of one letter, which is two when it is lowercased. -/
theorem dottedHost_not_aligned :
    ¬ CapturesAligned dottedLowercase (new dottedLowercase.toLowercase ['*']) ['\u0130'] := by
  have panics : (new dottedLowercase.toLowercase ['*']).matchHost dottedLowercase.toLowercase
      ['\u0130'] = none := by decide +kernel
  rintro ⟨found, returned, -⟩
  rw [panics] at returned
  cases returned

/-! ### Whether a match panics -/

theorem matchHost_eq_none (matches_ : Matches toLowercase hostname self)
    (past : ¬ Sliceable toLowercase hostname self) :
    self.matchHost toLowercase hostname = none := by
  obtain ⟨parts, greediest, walked⟩ := matchHost_of_matches matches_
  rw [walked, Option.map_eq_none_iff]
  by_contra some
  obtain ⟨captures, slices⟩ := Option.ne_none_iff_exists'.mp some
  exact past ((sliceable_iff greediest).mp (mapM_slice_eq_some.mp slices).1)

theorem matchHost_eq_some (matches_ : Matches toLowercase hostname self)
    (sliceable : Sliceable toLowercase hostname self) :
    ∃ captures, self.matchHost toLowercase hostname = some (some captures) := by
  obtain ⟨parts, greediest, walked⟩ := matchHost_of_matches matches_
  have slices := mapM_slice_eq_some.mpr ⟨(sliceable_iff greediest).mpr sliceable, rfl⟩
  exact ⟨_, by rw [walked, slices]; rfl⟩

end HostPattern

end MCGate
