import Mathlib.Data.List.InsertIdx
import Mathlib.Data.List.Sort

/-!
# Stable sorting

Insertion sort by a total preorder is stable: it commutes with filtering, so elements that
are equal for the order keep the order they had, and an element at the end comes last among its
equals. `sortPositions` gives, for each place of the sorted list, the place its element had
before.
-/
namespace MCGate.StableSort

variable {α : Type} {r : α → α → Prop} [DecidableRel r]

theorem orderedInsert_of_forall {a : α} {l : List α} (below : ∀ b ∈ l, r a b) :
    l.orderedInsert r a = a :: l := by
  cases l with
  | nil => rfl
  | cons b l => exact List.orderedInsert_cons_of_le r l (below b List.mem_cons_self)

theorem filter_orderedInsert_of_neg {p : α → Bool} {a : α} (l : List α) (out : ¬ p a) :
    (l.orderedInsert r a).filter p = l.filter p := by
  induction l with
  | nil => simp [out]
  | cons b l ih =>
    rw [List.orderedInsert_cons]
    split
    · rw [List.filter_cons_of_neg out]
    · by_cases kept : p b
      · rw [List.filter_cons_of_pos kept, List.filter_cons_of_pos kept, ih]
      · rw [List.filter_cons_of_neg kept, List.filter_cons_of_neg kept, ih]

theorem filter_orderedInsert_of_pos [IsTrans α r] {p : α → Bool} {a : α} {l : List α}
    (sorted : l.Pairwise r) (inside : p a) :
    (l.orderedInsert r a).filter p = (l.filter p).orderedInsert r a := by
  induction l with
  | nil => simp [inside]
  | cons b l ih =>
    obtain ⟨above, rest⟩ := List.pairwise_cons.mp sorted
    by_cases here : r a b
    · rw [List.orderedInsert_cons_of_le r l here, List.filter_cons_of_pos inside]
      refine (orderedInsert_of_forall fun c member => ?_).symm
      rcases List.mem_cons.mp (List.mem_of_mem_filter member) with rfl | later
      · exact here
      · exact IsTrans.trans a b c here (above c later)
    · rw [List.orderedInsert_of_not_le r l here]
      by_cases kept : p b
      · rw [List.filter_cons_of_pos kept, List.filter_cons_of_pos kept, ih rest,
          List.orderedInsert_of_not_le r _ here]
      · rw [List.filter_cons_of_neg kept, List.filter_cons_of_neg kept, ih rest]

/-- An element that none of the first part stands above is inserted behind it. -/
theorem orderedInsert_append_of_forall_not {a : α} {front : List α} (l : List α)
    (above : ∀ b ∈ front, ¬ r a b) :
    (front ++ l).orderedInsert r a = front ++ l.orderedInsert r a := by
  induction front with
  | nil => rfl
  | cons b front ih =>
    obtain ⟨here, later⟩ := List.forall_mem_cons.mp above
    rw [List.cons_append, List.orderedInsert_of_not_le r _ here, ih later, List.cons_append]

/-- An element that stands below the whole second part is inserted in front of it. -/
theorem orderedInsert_append_of_forall {a : α} {l : List α} (front : List α)
    (below : ∀ b ∈ l, r a b) :
    (front ++ l).orderedInsert r a = front.orderedInsert r a ++ l := by
  induction front with
  | nil => exact orderedInsert_of_forall below
  | cons b front ih =>
    by_cases here : r a b
    · rw [List.cons_append, List.orderedInsert_cons_of_le r _ here,
        List.orderedInsert_cons_of_le r _ here, List.cons_append, List.cons_append]
    · rw [List.cons_append, List.orderedInsert_of_not_le r _ here,
        List.orderedInsert_of_not_le r _ here, ih, List.cons_append]

variable [IsTrans α r] [Std.Total r]

/-- An element at the end of the list is sorted behind all that are not strictly above it. -/
theorem insertionSort_concat (l : List α) (a : α) :
    ∃ before after, l.insertionSort r = before ++ after ∧
      (l ++ [a]).insertionSort r = before ++ a :: after ∧
      (∀ b ∈ before, r b a) ∧ ∀ b ∈ after, ¬ r b a := by
  induction l with
  | nil => exact ⟨[], [], rfl, rfl, by simp, by simp⟩
  | cons x l ih =>
    obtain ⟨before, after, sorted, added, low, high⟩ := ih
    rw [List.cons_append, List.insertionSort_cons, List.insertionSort_cons, sorted, added]
    by_cases first : r x a
    -- `x` goes somewhere in front of `a`, or else behind all that stand in front of it
    · have toAfter (b : α) (member : b ∈ after) : r x b :=
        IsTrans.trans x a b first ((Std.Total.total a b).resolve_right (high b member))
      refine ⟨before.orderedInsert r x, after, ?_, ?_, fun b member => ?_, high⟩
      · exact orderedInsert_append_of_forall before toAfter
      · exact orderedInsert_append_of_forall before (List.forall_mem_cons.mpr ⟨first, toAfter⟩)
      · rcases (List.mem_orderedInsert r).mp member with rfl | old
        · exact first
        · exact low b old
    · have notBefore (b : α) (member : b ∈ before) : ¬ r x b :=
        fun here => first (IsTrans.trans x b a here (low b member))
      refine ⟨before, after.orderedInsert r x, ?_, ?_, low, fun b member => ?_⟩
      · exact orderedInsert_append_of_forall_not after notBefore
      · rw [orderedInsert_append_of_forall_not _ notBefore, List.orderedInsert_of_not_le r _ first]
      · rcases (List.mem_orderedInsert r).mp member with rfl | old
        · exact first
        · exact high b old

/-- Sorting commutes with filtering. -/
theorem filter_insertionSort (p : α → Bool) (l : List α) :
    (l.insertionSort r).filter p = (l.filter p).insertionSort r := by
  induction l with
  | nil => rfl
  | cons a l ih =>
    rw [List.insertionSort_cons]
    by_cases kept : p a
    · rw [filter_orderedInsert_of_pos (List.pairwise_insertionSort r l) kept, ih,
        List.filter_cons_of_pos kept, List.insertionSort_cons]
    · rw [filter_orderedInsert_of_neg _ kept, ih, List.filter_cons_of_neg kept]

/-- `sorted` is in order, and elements that are all below each other keep the order of `l`. -/
structure StablySorted (r : α → α → Prop) (l sorted : List α) : Prop where
  pairwise : sorted.Pairwise r
  stable : ∀ p : α → Bool, (∀ a b, p a → p b → r a b) → sorted.filter p = l.filter p

theorem stablySorted_insertionSort (l : List α) : StablySorted r l (l.insertionSort r) where
  pairwise := List.pairwise_insertionSort r l
  stable p tied := by
    rw [filter_insertionSort]
    apply List.Pairwise.insertionSort_eq
    apply List.pairwise_of_forall_mem_list
    intro a inA b inB
    exact tied a b (List.of_mem_filter inA) (List.of_mem_filter inB)

/-- The first of the sorted list is the first that stands below all others: those in front of
it stand strictly above. -/
theorem split_of_insertionSort {l sorted : List α} {a : α}
    (first : l.insertionSort r = a :: sorted) :
    ∃ before after, l = before ++ a :: after ∧ (∀ b ∈ before, ¬ r b a) ∧ ∀ b ∈ after, r a b := by
  induction l generalizing a sorted with
  | nil => cases first
  | cons x l ih =>
    rw [List.insertionSort_cons] at first
    cases rest : l.insertionSort r with
    | nil =>
      rw [rest] at first
      obtain ⟨rfl, -⟩ := List.cons.inj first
      have none : l = [] := by
        have perm := List.perm_insertionSort r l
        rw [rest] at perm
        exact perm.nil_eq.symm
      subst none
      exact ⟨[], [], rfl, by simp, by simp⟩
    | cons m tail =>
      rw [rest] at first
      by_cases here : r x m
      · rw [List.orderedInsert_cons_of_le r tail here] at first
        obtain ⟨rfl, -⟩ := List.cons.inj first
        refine ⟨[], l, rfl, by simp, fun b member => ?_⟩
        have sorted := List.pairwise_insertionSort r l
        rw [rest, List.pairwise_cons] at sorted
        have inSorted : b ∈ m :: tail := rest ▸ (List.mem_insertionSort r).mpr member
        rcases List.mem_cons.mp inSorted with rfl | later
        · exact here
        · exact IsTrans.trans x m b here (sorted.1 b later)
      · rw [List.orderedInsert_of_not_le r tail here] at first
        obtain ⟨rfl, -⟩ := List.cons.inj first
        obtain ⟨before, after, rfl, above, below⟩ := ih rest
        exact ⟨x :: before, after, rfl, List.forall_mem_cons.mpr ⟨here, above⟩, below⟩

/-! ### Where an element came from -/

/-- The order on elements tagged with their place. -/
def onValue (r : α → α → Prop) (a b : α × Nat) : Prop := r a.1 b.1

instance : DecidableRel (onValue r) := fun a b => inferInstanceAs (Decidable (r a.1 b.1))

omit [DecidableRel r] [Std.Total r] in
instance : IsTrans (α × Nat) (onValue r) := ⟨fun a b c => IsTrans.trans a.1 b.1 c.1⟩

omit [DecidableRel r] [IsTrans α r] in
instance : Std.Total (onValue r) := ⟨fun a b => Std.Total.total a.1 b.1⟩

/-- The sorted list, each element with the place it had before. -/
def sortTagged (r : α → α → Prop) [DecidableRel r] (l : List α) : List (α × Nat) :=
  l.zipIdx.insertionSort (onValue r)

/-- For each place of the sorted list, the place its element had before. -/
def sortPositions (r : α → α → Prop) [DecidableRel r] (l : List α) : List Nat :=
  (sortTagged r l).map Prod.snd

omit [IsTrans α r] [Std.Total r] in
theorem map_fst_insertionSort (tagged : List (α × Nat)) :
    (tagged.insertionSort (onValue r)).map Prod.fst = (tagged.map Prod.fst).insertionSort r :=
  List.map_insertionSort (onValue r) r Prod.fst tagged fun _ _ _ _ => Iff.rfl

omit [IsTrans α r] [Std.Total r] in
theorem sortPositions_perm (l : List α) : (sortPositions r l).Perm (List.range l.length) := by
  have tags : l.zipIdx.map Prod.snd = List.range l.length := by
    simp [List.zipIdx_map_snd, List.range_eq_range']
  rw [← tags]
  exact (List.perm_insertionSort (onValue r) l.zipIdx).map Prod.snd

/-- Dropping the one element with a tag is dropping the place where it stands. -/
theorem filter_tag_eq_eraseIdx {tagged : List (α × Nat)} {i : Nat} {x : α × Nat}
    (distinct : (tagged.map Prod.snd).Nodup) (at_i : tagged[i]? = some x) :
    tagged.filter (fun y => y.2 ≠ x.2) = tagged.eraseIdx i := by
  induction tagged generalizing i with
  | nil => cases at_i
  | cons y tagged ih =>
    obtain ⟨notIn, rest⟩ := List.nodup_cons.mp distinct
    cases i with
    | zero =>
      obtain rfl : y = x := Option.some.inj at_i
      rw [List.filter_cons_of_neg (by simp), List.eraseIdx_cons_zero]
      apply List.filter_eq_self.mpr
      intro z member
      have apart : z.2 ≠ y.2 := fun same => notIn (same ▸ List.mem_map_of_mem member)
      exact decide_eq_true apart
    | succ i =>
      have later : tagged[i]? = some x := at_i
      have apart : y.2 ≠ x.2 := fun same =>
        notIn (same ▸ List.mem_map_of_mem (List.mem_of_getElem? later))
      rw [List.filter_cons_of_pos (by simpa using apart), List.eraseIdx_cons_succ, ih rest later]

/-- Erasing an element before sorting erases it from the sorted list. -/
theorem insertionSort_eraseIdx {l : List α} {i j : Nat}
    (from_j : (sortPositions r l)[i]? = some j) :
    (l.eraseIdx j).insertionSort r = (l.insertionSort r).eraseIdx i := by
  rw [sortPositions, List.getElem?_map, Option.map_eq_some_iff] at from_j
  obtain ⟨x, at_i, rfl⟩ := from_j
  have perm := sortPositions_perm (r := r) l
  have distinct : ((sortTagged r l).map Prod.snd).Nodup := perm.nodup_iff.mpr List.nodup_range
  have inRange : x.2 < l.length :=
    List.mem_range.mp (perm.subset (List.mem_map_of_mem (List.mem_of_getElem? at_i)))
  -- before sorting, the element with tag `x.2` stands at `x.2`
  have erased : (l.zipIdx.filter fun y => y.2 ≠ x.2) = l.zipIdx.eraseIdx x.2 := by
    apply filter_tag_eq_eraseIdx (x := (l.get ⟨x.2, inRange⟩, x.2))
    · simp [List.zipIdx_map_snd, List.nodup_range']
    · simp [inRange]
  calc (l.eraseIdx x.2).insertionSort r
      = ((l.zipIdx.eraseIdx x.2).map Prod.fst).insertionSort r := by
        rw [← List.eraseIdx_map, List.zipIdx_map_fst]
    _ = ((l.zipIdx.eraseIdx x.2).insertionSort (onValue r)).map Prod.fst :=
        (map_fst_insertionSort _).symm
    _ = ((sortTagged r l).filter fun y => y.2 ≠ x.2).map Prod.fst := by
        rw [← erased, sortTagged, filter_insertionSort]
    _ = ((sortTagged r l).eraseIdx i).map Prod.fst := by
        rw [filter_tag_eq_eraseIdx distinct at_i]
    _ = (l.insertionSort r).eraseIdx i := by
        rw [← List.eraseIdx_map, sortTagged, map_fst_insertionSort, List.zipIdx_map_fst]

omit [IsTrans α r] [Std.Total r] in
theorem getElem?_insertionSort {l : List α} {i j : Nat}
    (from_j : (sortPositions r l)[i]? = some j) : (l.insertionSort r)[i]? = l[j]? := by
  rw [sortPositions, List.getElem?_map, Option.map_eq_some_iff] at from_j
  obtain ⟨x, at_i, rfl⟩ := from_j
  have tagged : x ∈ l.zipIdx :=
    (List.perm_insertionSort (onValue r) l.zipIdx).subset (List.mem_of_getElem? at_i)
  have untagged : (sortTagged r l).map Prod.fst = l.insertionSort r := by
    rw [sortTagged, map_fst_insertionSort, List.zipIdx_map_fst]
  rw [← untagged, List.getElem?_map, at_i, List.mem_zipIdx_iff_getElem?.mp tagged]
  rfl

/-- Replacing an element before sorting gives the new one some place among the others, which
stay as they are. -/
theorem insertionSort_set {l : List α} {i j : Nat} (x : α)
    (from_j : (sortPositions r l)[i]? = some j) :
    ∃ k, ((l.set j x).insertionSort r)[k]? = some x ∧
      ((l.set j x).insertionSort r).eraseIdx k = (l.insertionSort r).eraseIdx i := by
  have inRange : j < l.length :=
    List.mem_range.mp ((sortPositions_perm l).subset (List.mem_of_getElem? from_j))
  have sorted : j ∈ sortPositions r (l.set j x) :=
    (sortPositions_perm (l.set j x)).symm.subset (by simpa using inRange)
  obtain ⟨k, at_k⟩ := List.mem_iff_getElem?.mp sorted
  refine ⟨k, ?_, ?_⟩
  · rw [getElem?_insertionSort at_k, List.getElem?_set_self inRange]
  · rw [← insertionSort_eraseIdx at_k, List.eraseIdx_set_eq, insertionSort_eraseIdx from_j]

/-- The element that came from place `j` is replaced. -/
def retag (j : Nat) (x : α) (y : α × Nat) : α × Nat := if y.2 = j then (x, j) else y

omit [IsTrans α r] in
/-- A new element of the same rank changes no comparison. -/
theorem sortTagged_set_of_tied {l : List α} {j : Nat} {x : α}
    (tied : ∀ y, l[j]? = some y → ∀ z, (r x z ↔ r y z) ∧ (r z x ↔ r z y)) :
    sortTagged r (l.set j x) = (sortTagged r l).map (retag j x) := by
  have tagged : (l.set j x).zipIdx = l.zipIdx.map (retag j x) := by
    apply List.ext_getElem?
    intro k
    rw [List.getElem?_map, List.getElem?_zipIdx, List.getElem?_zipIdx, List.getElem?_set]
    by_cases here : j = k
    · subst here
      cases at_j : l[j]? with
      | none => simp [List.getElem?_eq_none_iff.mp at_j]
      | some y => simp [(List.getElem?_eq_some_iff.mp at_j).1, retag]
    · cases l[k]? <;> simp [here, retag, Ne.symm here]
  rw [sortTagged, tagged, sortTagged]
  refine (List.map_insertionSort (onValue r) (onValue r) (retag j x) _ fun a inA b inB => ?_).symm
  have atA := List.mem_zipIdx_iff_getElem?.mp inA
  have atB := List.mem_zipIdx_iff_getElem?.mp inB
  by_cases hereA : a.2 = j <;> by_cases hereB : b.2 = j
  · have refl : ∀ z, r z z := fun z => (Std.Total.total z z).elim id id
    rw [hereA] at atA
    rw [hereB, atA] at atB
    simp only [onValue, retag, hereA, hereB, if_true, ← Option.some.inj atB]
    exact iff_of_true (refl a.1) (refl x)
  · simp only [onValue, retag, hereA, hereB, if_true, if_false]
    exact (tied a.1 (hereA ▸ atA) b.1).1.symm
  · simp only [onValue, retag, hereA, hereB, if_true, if_false]
    exact (tied b.1 (hereB ▸ atB) a.1).2.symm
  · simp only [onValue, retag, hereA, hereB, if_false]

omit [IsTrans α r] in
/-- An element that takes the place of one of the same rank is sorted to the same place. -/
theorem insertionSort_set_of_tied {l : List α} {i j : Nat} {x : α}
    (from_j : (sortPositions r l)[i]? = some j)
    (tied : ∀ y, l[j]? = some y → ∀ z, (r x z ↔ r y z) ∧ (r z x ↔ r z y)) :
    (l.set j x).insertionSort r = (l.insertionSort r).set i x := by
  have untag (l : List α) : l.insertionSort r = (sortTagged r l).map Prod.fst := by
    rw [sortTagged, map_fst_insertionSort, List.zipIdx_map_fst]
  have distinct : (sortPositions r l).Nodup :=
    (sortPositions_perm l).nodup_iff.mpr List.nodup_range
  rw [untag, untag, sortTagged_set_of_tied tied]
  apply List.ext_getElem?
  intro k
  -- only the element that stands at `i` came from `j`
  have tag (z : α × Nat) (at_k : (sortTagged r l)[k]? = some z) : z.2 = j ↔ i = k := by
    have at_k' : (sortPositions r l)[k]? = some z.2 := by simp [sortPositions, at_k]
    constructor
    · rintro rfl
      obtain ⟨below, -⟩ := List.getElem?_eq_some_iff.mp from_j
      exact (List.getElem?_inj below distinct).mp (from_j.trans at_k'.symm)
    · rintro rfl
      exact Option.some.inj (at_k'.symm.trans from_j)
  rw [List.getElem?_set, List.getElem?_map, List.getElem?_map, List.getElem?_map, List.length_map]
  cases at_k : (sortTagged r l)[k]? with
  | none =>
    have apart : i ≠ k := by
      rintro rfl
      simp [sortPositions, at_k] at from_j
    simp [apart]
  | some z =>
    have inRange := (List.getElem?_eq_some_iff.mp at_k).1
    by_cases here : i = k
    · simp [retag, (tag z at_k).mpr here, here, inRange]
    · simp [retag, mt (tag z at_k).mp here, here]

end MCGate.StableSort
