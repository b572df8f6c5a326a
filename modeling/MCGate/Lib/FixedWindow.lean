import Mathlib.Algebra.Order.Group.Nat
import Mathlib.Data.List.Basic

/-!
# Fixed windows

A limiter that admits at most `max` events from the start of a window on, and starts the next
window no earlier than `window` after the last one. An interval that is shorter than a window
meets at most two of them, so it holds at most twice as many admissions. `Paced` is what is kept
of the times of all admissions: how many are in the current window, and how many of those before
it an interval can still meet together with the current one.
-/
namespace MCGate.FixedWindow

variable {window max start now : Nat} {times : List Nat}

/-- The admissions at or after `a` and before `b`. -/
def between (a b : Nat) (times : List Nat) : Nat := times.countP fun t => a ≤ t ∧ t < b

structure Paced (window max start : Nat) (times : List Nat) : Prop where
  /-- no admission is later than the window that began at `start` -/
  recent : ∀ t ∈ times, t < start + window
  current : between start (start + window) times ≤ max
  before : ∀ a, start < a + window → between a start times ≤ max
  bounded : ∀ a, between a (a + window) times ≤ 2 * max

theorem between_cons (a b t : Nat) (times : List Nat) :
    between a b (t :: times) = between a b times + if a ≤ t ∧ t < b then 1 else 0 := by
  simp [between, List.countP_cons]

theorem between_mono {a b a' b' : Nat} (within : ∀ t ∈ times, a ≤ t → t < b → a' ≤ t ∧ t < b') :
    between a b times ≤ between a' b' times := by
  refine List.countP_mono_left fun t member inside => ?_
  rw [decide_eq_true_iff] at inside ⊢
  exact within t member inside.1 inside.2

/-- An interval that `start` splits. -/
theorem between_split {a b : Nat} (times : List Nat) (first : a ≤ start) (last : start ≤ b) :
    between a b times = between a start times + between start b times := by
  induction times with
  | nil => rfl
  | cons t times ih =>
    rw [between_cons, between_cons, between_cons, ih]
    by_cases early : t < start
    · have notYet : ¬ start ≤ t := by omega
      have inside : t < b := by omega
      simp only [early, notYet, inside, if_false, and_true]
      omega
    · have reached : a ≤ t := by omega
      have begun : start ≤ t := by omega
      simp only [early, reached, begun, true_and, and_false, if_false]
      omega

theorem between_eq_zero {a b : Nat} (early : ∀ t ∈ times, t < a) : between a b times = 0 := by
  refine List.countP_eq_zero.mpr fun t member => ?_
  rw [decide_eq_true_iff]
  have := early t member
  omega

theorem paced_nil : Paced window max start [] where
  recent := fun _ member => by cases member
  current := Nat.zero_le _
  before := fun _ _ => Nat.zero_le _
  bounded := fun _ => Nat.zero_le _

/-- The next window starts. -/
theorem Paced.restart (paced : Paced window max start times) (elapsed : start + window ≤ now) :
    (∀ t ∈ times, t < now) ∧ Paced window max now times := by
  have early : ∀ t ∈ times, t < now := fun t member =>
    Nat.lt_of_lt_of_le (paced.recent t member) elapsed
  refine ⟨early, ?_⟩
  constructor
  case recent => exact fun t member => Nat.lt_add_right window (early t member)
  case current =>
    rw [between_eq_zero early]
    exact Nat.zero_le max
  case before =>
    -- what an interval that reaches into the new window can meet is in the old window
    intro a reaches
    refine Nat.le_trans (between_mono fun t member from_a _ => ⟨?_, ?_⟩) paced.current
    · omega
    · exact paced.recent t member
  case bounded => exact paced.bounded

/-- An event is admitted in the current window. -/
theorem Paced.admit (paced : Paced window max start times) (begun : start ≤ now)
    (inside : now < start + window) (room : between start (start + window) times + 1 ≤ max) :
    Paced window max start (now :: times) := by
  constructor
  case recent =>
    intro t member
    rcases List.mem_cons.mp member with rfl | old
    · exact inside
    · exact paced.recent t old
  case current =>
    rw [between_cons, if_pos ⟨begun, inside⟩]
    exact room
  case before =>
    intro a reaches
    rw [between_cons, if_neg (by omega)]
    exact paced.before a reaches
  case bounded =>
    intro a
    rw [between_cons]
    split
    next meets =>
      by_cases first : a ≤ start
      · -- the part before the window, and the window itself
        have earlier := paced.before a (by omega)
        have rest : between start (a + window) times ≤ between start (start + window) times :=
          between_mono fun t _ from_start _ => ⟨from_start, by omega⟩
        rw [between_split times first (by omega)]
        omega
      · have all : between a (a + window) times ≤ between start (start + window) times :=
          between_mono fun t member from_a _ => ⟨by omega, paced.recent t member⟩
        omega
    next => exact paced.bounded a

end MCGate.FixedWindow
