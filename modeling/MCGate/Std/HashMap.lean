import Mathlib.Data.List.AList

/-!
# Hash maps

A `HashMap` is an association list without duplicate keys: `insert`, `remove` and `get` are
`AList`'s. Its order is one of the orders in which the map may be iterated.
-/
namespace MCGate

abbrev HashMap (κ ν : Type) := AList fun _ : κ => ν

namespace HashMap

variable {κ ν : Type}

/-- `map.retain(|k, v| keep(k, v))` -/
def retain (keep : κ → ν → Bool) (m : HashMap κ ν) : HashMap κ ν :=
  ⟨m.entries.filter fun entry => keep entry.1 entry.2,
    m.nodupKeys.sublist List.filter_sublist⟩

theorem length_retain_le (keep : κ → ν → Bool) (m : HashMap κ ν) :
    (m.retain keep).entries.length ≤ m.entries.length :=
  List.length_filter_le _ _

variable [DecidableEq κ]

theorem mem_entries_iff {m : HashMap κ ν} {key : κ} {value : ν} :
    ⟨key, value⟩ ∈ m.entries ↔ m.lookup key = some value :=
  AList.mem_lookup_iff.symm

theorem lookup_retain (keep : κ → ν → Bool) (m : HashMap κ ν) (key : κ) :
    (m.retain keep).lookup key = (m.lookup key).filter (keep key) := by
  apply Option.ext
  intro value
  rw [← mem_entries_iff, retain, List.mem_filter, mem_entries_iff, Option.filter_eq_some_iff]

/-- One lookup after an insertion. -/
theorem lookup_insert_eq (m : HashMap κ ν) (key other : κ) (value : ν) :
    (m.insert key value).lookup other = if other = key then some value else m.lookup other := by
  by_cases same : other = key
  · rw [if_pos same, same, AList.lookup_insert]
  · rw [if_neg same, AList.lookup_insert_ne same]

theorem lookup_erase_eq (m : HashMap κ ν) (key other : κ) :
    (m.erase key).lookup other = if other = key then none else m.lookup other := by
  by_cases same : other = key
  · rw [if_pos same, same, AList.lookup_erase]
  · rw [if_neg same, AList.lookup_erase_ne same]

/-- A new entry is one more to count. -/
theorem countP_insert {m : HashMap κ ν} {key : κ} (absent : m.lookup key = none) (value : ν)
    (p : (Σ _ : κ, ν) → Bool) :
    (m.insert key value).entries.countP p =
      m.entries.countP p + if p ⟨key, value⟩ then 1 else 0 := by
  rw [AList.entries_insert_of_notMem (AList.lookup_eq_none.mp absent), List.countP_cons]

/-- An entry that is removed is one less. -/
theorem countP_erase {m : HashMap κ ν} {key : κ} {value : ν} (found : m.lookup key = some value)
    (p : (Σ _ : κ, ν) → Bool) :
    m.entries.countP p = (m.erase key).entries.countP p + if p ⟨key, value⟩ then 1 else 0 := by
  have member : key ∈ m.entries.keys := AList.lookup_isSome.mp (Option.isSome_of_eq_some found)
  obtain ⟨other, before, after, -, split, erased⟩ := List.exists_of_kerase member
  have same : other = value := by
    have entry : (⟨key, other⟩ : Σ _ : κ, ν) ∈ m.entries := by simp [split]
    rw [mem_entries_iff, found] at entry
    exact (Option.some.inj entry).symm
  have rest : (m.erase key).entries = before ++ after := erased
  rw [rest, split, same, List.countP_append, List.countP_append, List.countP_cons, Nat.add_assoc]

theorem length_erase {m : HashMap κ ν} {key : κ} {value : ν} (found : m.lookup key = some value) :
    m.entries.length = (m.erase key).entries.length + 1 := by
  have count := countP_erase found fun _ => true
  rw [List.countP_true] at count
  exact count

/-- An entry more where there was none, and as many where there was one. -/
theorem length_insert (m : HashMap κ ν) (key : κ) (value : ν) :
    (m.insert key value).entries.length =
      m.entries.length + if (m.lookup key).isSome then 0 else 1 := by
  cases found : m.lookup key with
  | none =>
    rw [AList.entries_insert_of_notMem (AList.lookup_eq_none.mp found), List.length_cons]
    rfl
  | some old =>
    have again : (m.insert key value).entries.length = (m.erase key).entries.length + 1 := rfl
    rw [again, length_erase found]
    rfl

theorem length_erase_le (m : HashMap κ ν) (key : κ) :
    (m.erase key).entries.length ≤ m.entries.length :=
  (List.kerase_sublist key m.entries).length_le

section Counts

variable (counts : HashMap κ Int) (key other : κ)

/-- `*counts.get(&key).unwrap_or(&0)` -/
def countOf : Int := (counts.lookup key).getD 0

/-- `*counts.entry(key).or_insert(0) += 1` -/
def countUp : HashMap κ Int := counts.insert key (counts.countOf key + 1)

/-- One less where there is an entry; an entry that comes to zero is removed. -/
def countDown : HashMap κ Int :=
  match counts.lookup key with
  | none => counts
  | some count => if count - 1 ≤ 0 then counts.erase key else counts.insert key (count - 1)

/-- One more unless that is above `max`; an entry that stays at zero is removed. -/
def tryCountUp (max : Int) : HashMap κ Int × Bool :=
  if max < counts.countOf key + 1 then
    if counts.countOf key ≤ 0 then (counts.erase key, false)
    else (counts.insert key (counts.countOf key), false)
  else (counts.countUp key, true)

/-- Every entry counts something. -/
def Positive : Prop := ∀ key count, counts.lookup key = some count → 0 < count

theorem countOf_countUp :
    (counts.countUp key).countOf other =
      if other = key then counts.countOf key + 1 else counts.countOf other := by
  unfold countUp countOf
  rw [lookup_insert_eq]
  split <;> rfl

variable {counts key}

theorem Positive.countOf_nonneg (positive : counts.Positive) (key : κ) :
    0 ≤ counts.countOf key := by
  unfold countOf
  cases stored : counts.lookup key with
  | none => exact Int.le_refl 0
  | some count => exact Int.le_of_lt (positive key count stored)

theorem Positive.countUp (positive : counts.Positive) : (counts.countUp key).Positive := by
  intro other count stored
  unfold HashMap.countUp at stored
  rw [lookup_insert_eq] at stored
  split at stored
  · cases stored
    have nonneg := positive.countOf_nonneg key
    omega
  · exact positive other count stored

theorem Positive.countDown (positive : counts.Positive) : (counts.countDown key).Positive := by
  unfold HashMap.countDown
  split
  · exact positive
  next count stored =>
    intro other left found
    split at found
    · rw [lookup_erase_eq] at found
      split at found
      · cases found
      · exact positive other left found
    next rest =>
      rw [lookup_insert_eq] at found
      split at found
      · cases found
        omega
      · exact positive other left found

/-- Counting down takes one away where there was one. -/
theorem Positive.countOf_countDown (positive : counts.Positive) (other : κ) :
    (counts.countDown key).countOf other =
      if other = key then counts.countOf key - (if counts.countOf key = 0 then 0 else 1)
      else counts.countOf other := by
  unfold HashMap.countDown
  cases stored : counts.lookup key with
  | none =>
    have zero : counts.countOf key = 0 := by rw [countOf, stored]; rfl
    simp only [zero, if_true]
    split
    next same => rw [same, zero]; rfl
    next => rfl
  | some count =>
    have value : counts.countOf key = count := by rw [countOf, stored]; rfl
    have above := positive key count stored
    have nonzero : count ≠ 0 := by omega
    dsimp only
    rw [value, if_neg nonzero]
    split
    next last =>
      unfold countOf
      rw [lookup_erase_eq]
      have one : count - 1 = 0 := by omega
      split
      · rw [one]; rfl
      · rfl
    next more =>
      unfold countOf
      rw [lookup_insert_eq]
      split <;> rfl

end Counts

end HashMap

end MCGate
