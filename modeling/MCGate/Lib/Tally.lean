import Mathlib.Data.Multiset.Filter
import MCGate.Std.HashMap

/-!
# Tallies

Parties each hold at most one item of a kind, and a table counts how many of them hold each
item. A party that takes an item counts up and one that gives it back counts down, so the table
is right in between (`Tallies.countUp`, `Tallies.countDown`). With nobody holding anything it is
empty (`Tallies.eq_nil`): entries that come to zero are removed.
-/
namespace MCGate.Tally

variable {τ κ : Type} [DecidableEq κ]

/-- What one party holds, as a number of items `key`. -/
def share (held : Option κ) (key : κ) : Nat := if held = some key then 1 else 0

/-- How many parties hold `key`. -/
def tally (holds : τ → Option κ) (parties : Multiset τ) (key : κ) : Nat :=
  parties.countP fun party => holds party = some key

@[simp] theorem share_none (key : κ) : share none key = 0 := rfl

@[simp] theorem share_self (key : κ) : share (some key) key = 1 := if_pos rfl

theorem share_some (held key : κ) : share (some held) key = if key = held then 1 else 0 := by
  unfold share
  by_cases same : key = held
  · rw [if_pos (by rw [same]), if_pos same]
  · rw [if_neg (fun equal => same (Option.some.inj equal).symm), if_neg same]

variable {holds : τ → Option κ} {parties : Multiset τ} {party : τ} {key : κ}

theorem tally_cons :
    tally holds (party ::ₘ parties) key = tally holds parties key + share (holds party) key := by
  unfold tally share
  rw [Multiset.countP_cons]

/-- The items are counted where the parties are seen through a map. -/
theorem tally_map {σ : Type} (view : σ → τ) (views : Multiset σ) :
    tally holds (views.map view) key = tally (fun party => holds (view party)) views key := by
  unfold tally
  rw [Multiset.countP_map, ← Multiset.countP_eq_card_filter]

theorem tally_eq_zero (empty : ∀ party ∈ parties, holds party = none) :
    tally holds parties key = 0 := by
  refine Multiset.countP_eq_zero.mpr fun party member held => ?_
  rw [empty party member] at held
  cases held

/-- Fewer parties meet a condition that implies another. -/
theorem countP_mono {p q : τ → Prop} [DecidablePred p] [DecidablePred q]
    (implies : ∀ party ∈ parties, p party → q party) : parties.countP p ≤ parties.countP q := by
  induction parties using Quotient.inductionOn with
  | h parties =>
    apply List.countP_mono_left
    intro party member meets
    exact decide_eq_true (implies party member (of_decide_eq_true meets))

end MCGate.Tally

namespace MCGate.HashMap

open Tally

variable {κ : Type} [DecidableEq κ] {counts : HashMap κ Int} {n : κ → Nat} {key : κ}

/-- The table counts `n`, and has no entry for what is not held. -/
structure Tallies (counts : HashMap κ Int) (n : κ → Nat) : Prop where
  positive : counts.Positive
  counts : ∀ key, counts.countOf key = n key

theorem Tallies.empty : Tallies (∅ : HashMap κ Int) fun _ => 0 where
  positive _ _ stored := by cases stored
  counts _ := rfl

theorem Tallies.congr {m : κ → Nat} (tallies : Tallies counts n) (same : ∀ key, m key = n key) :
    Tallies counts m where
  positive := tallies.positive
  counts key := by rw [tallies.counts, same]

/-- The same entries count the same. -/
theorem Tallies.of_lookup {counts' : HashMap κ Int} (tallies : Tallies counts n)
    (same : ∀ key, counts'.lookup key = counts.lookup key) : Tallies counts' n where
  positive key count stored := tallies.positive key count (by rwa [← same])
  counts key := by
    rw [← tallies.counts, countOf, countOf, same]

/-- A party without an item takes `key`. -/
theorem Tallies.countUp (tallies : Tallies counts fun k => n k + share none k) :
    Tallies (counts.countUp key) fun k => n k + share (some key) k where
  positive := tallies.positive.countUp
  counts other := by
    have before := tallies.counts
    rw [countOf_countUp, share_some]
    by_cases same : other = key
    · rw [if_pos same, if_pos same, before, same]
      rfl
    · rw [if_neg same, if_neg same, before]
      rfl

/-- The party that holds `key` gives it back. -/
theorem Tallies.countDown (tallies : Tallies counts fun k => n k + share (some key) k) :
    Tallies (counts.countDown key) fun k => n k + share none k where
  positive := tallies.positive.countDown
  counts other := by
    have before := tallies.counts
    rw [tallies.positive.countOf_countDown, share_none]
    by_cases same : other = key
    · have held : counts.countOf key = n key + 1 := by
        rw [before, share_self]
        rfl
      have nonzero : counts.countOf key ≠ 0 := by omega
      rw [if_pos same, if_neg nonzero, held, same]
      omega
    · rw [if_neg same, before, share_some, if_neg same]

/-- A party without an item asks for `key` where at most `max` may be counted: it has it now, or
the table counts what it did. -/
theorem Tallies.tryCountUp (tallies : Tallies counts fun k => n k + share none k) (key : κ)
    (max : Int) :
    Tallies (counts.tryCountUp key max).1 fun k =>
      n k + share (if (counts.tryCountUp key max).2 then some key else none) k := by
  unfold HashMap.tryCountUp
  split
  next full =>
    -- the entry is taken out where it would be zero, and put back where it is not
    split
    next zero =>
      have absent : counts.lookup key = none := by
        by_contra some
        obtain ⟨count, stored⟩ := Option.ne_none_iff_exists'.mp some
        have above := tallies.positive key count stored
        rw [countOf, stored, Option.getD_some] at zero
        omega
      refine tallies.of_lookup fun other => ?_
      rw [lookup_erase_eq]
      split
      next same => rw [same, absent]
      next => rfl
    next nonzero =>
      refine tallies.of_lookup fun other => ?_
      rw [lookup_insert_eq]
      split
      next same =>
        cases stored : counts.lookup key with
        | none =>
          rw [countOf, stored] at nonzero
          exact absurd (Int.le_refl 0) nonzero
        | some count => rw [same, stored, countOf, stored, Option.getD_some]
      next => rfl
  next room => exact tallies.countUp

theorem countOf_tryCountUp_le {max : Int} (positive : counts.Positive)
    (bounded : ∀ key, counts.countOf key ≤ max) (other : κ) :
    (counts.tryCountUp key max).1.countOf other ≤ max := by
  have tallies : Tallies counts fun k => (counts.countOf k).toNat + share none k := by
    refine ⟨positive, fun k => ?_⟩
    have nonneg := positive.countOf_nonneg k
    rw [share_none]
    omega
  have after := (tallies.tryCountUp key max).counts other
  have before := bounded other
  have nonneg := positive.countOf_nonneg other
  rw [after]
  split
  next admitted =>
    rw [share_some]
    split
    next same =>
      have room : ¬ max < counts.countOf key + 1 := by
        intro full
        simp only [HashMap.tryCountUp, if_pos full] at admitted
        split at admitted <;> cases admitted
      subst same
      omega
    next => omega
  next => rw [share_none]; omega

theorem countOf_countDown_le {max : Int} (positive : counts.Positive)
    (bounded : ∀ key, counts.countOf key ≤ max) (other : κ) :
    (counts.countDown key).countOf other ≤ max := by
  rw [positive.countOf_countDown]
  have before := bounded other
  have nonneg := positive.countOf_nonneg key
  split
  next same =>
    subst same
    split <;> omega
  next => exact before

/-- Where nothing is held the table is empty. -/
theorem Tallies.eq_nil (tallies : Tallies counts fun _ => 0) : counts.entries = [] := by
  by_contra some
  obtain ⟨⟨key, count⟩, member⟩ := List.exists_mem_of_ne_nil _ some
  have stored := mem_entries_iff.mp member
  have above := tallies.positive key count stored
  have zero := tallies.counts key
  rw [countOf, stored] at zero
  simp only [Option.getD_some, Int.natCast_zero] at zero
  omega

end MCGate.HashMap
