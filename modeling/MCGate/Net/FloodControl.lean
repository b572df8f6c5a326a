import MCGate.Lib.FixedWindow
import MCGate.Lib.Threads
import MCGate.Std.HashMap
import MCGate.Std.Text
import MCGate.Std.Time

/-!
# Flood ceilings

Two ceilings stand in front of every connection. `GlobalConnections` counts the open ones: an
acquire adds one first, compares, and takes it back if that was one too many, so that the
counter may be too high for a moment but no guard too many is given out. `ConnectionRates`
counts the new ones of each IP in fixed windows. A sweep drops the windows that began long ago,
and with them the count of a window that is longer than that.
-/
namespace MCGate

/-! ### All connections -/

structure GlobalConnections where
  count : Int

structure GlobalConnectionGuard where
  released : Bool
  deriving DecidableEq

/-- Where a task is between `acquire` and the drop of the guard. -/
inductive GuardTask where
  | acquire
  /-- `fetch_add` is done, and `count` is what it gave, and one -/
  | compare (count : Int)
  /-- that was above the limit -/
  | undo
  | rejected
  | guard (guard : GlobalConnectionGuard)
  | dropped
  deriving DecidableEq

namespace GuardTask

def fresh (task : GuardTask) : Bool := task = .acquire

/-- One atomic access, or the comparison between two of them. -/
def advance (max : Int) (gc : GlobalConnections) (task : GuardTask) (_ : Unit) :
    Option (GlobalConnections × GuardTask) :=
  match task with
  | .acquire =>
    if max ≤ 0 then some (gc, .guard ⟨true⟩)
    else some (⟨gc.count + 1⟩, .compare (gc.count + 1))
  | .compare count => some (gc, if max < count then .undo else .guard ⟨false⟩)
  | .undo => some (⟨gc.count - 1⟩, .rejected)
  | .guard ⟨released⟩ => some (if released then gc else ⟨gc.count - 1⟩, .dropped)
  | .rejected | .dropped => none

/-- A guard that has a slot. -/
def holds (task : GuardTask) : Bool := task = .guard ⟨false⟩

/-- An acquire that has added one, and is not done. -/
def pending : GuardTask → Bool
  | .compare _ | .undo => true
  | _ => false

/-- An acquire that will be given its slot. -/
def wins (max : Int) : GuardTask → Bool
  | .compare count => count ≤ max
  | _ => false

end GuardTask

open Machine Threads

section GlobalCap

open GuardTask

variable {max : Int} {gc gc' : GlobalConnections} {task task' : GuardTask}
  {tasks others : Multiset GuardTask}

/-- The slots that are held. -/
def held (tasks : Multiset GuardTask) : Nat := tasks.countP fun task => task.holds

/-- The acquires that have added one, and are not done. -/
def underWay (tasks : Multiset GuardTask) : Nat := tasks.countP fun task => task.pending

def winning (max : Int) (tasks : Multiset GuardTask) : Nat :=
  tasks.countP fun task => task.wins max

theorem held_cons : held (task ::ₘ others) = held others + task.holds.toNat := by
  rw [held, Multiset.countP_cons]
  cases task.holds <;> rfl

private theorem underWay_cons :
    underWay (task ::ₘ others) = underWay others + task.pending.toNat := by
  rw [underWay, Multiset.countP_cons]
  cases task.pending <;> rfl

private theorem winning_cons :
    winning max (task ::ₘ others) = winning max others + (task.wins max).toNat := by
  rw [winning, Multiset.countP_cons]
  cases task.wins max <;> rfl

/-- The counter is made up of the slots held and of the acquires under way, and those that are
given a slot do not exceed the limit. -/
structure Balanced (max : Int) (gc : GlobalConnections) (tasks : Multiset GuardTask) : Prop where
  count : gc.count = held tasks + underWay tasks
  capped : (held tasks + winning max tasks : Int) ≤ max

private theorem winning_le_underWay (max : Int) (tasks : Multiset GuardTask) :
    winning max tasks ≤ underWay tasks := by
  rw [winning, underWay, Multiset.countP_eq_card_filter, Multiset.countP_eq_card_filter]
  refine Multiset.card_le_card (Multiset.monotone_filter_right tasks fun task wins => ?_)
  cases task <;> first | rfl | cases wins

theorem Balanced.spawn (balanced : Balanced max gc tasks) (fresh : task.fresh) :
    Balanced max gc (task ::ₘ tasks) := by
  have new : task = .acquire := by simpa [GuardTask.fresh] using fresh
  subst new
  obtain ⟨count, capped⟩ := balanced
  constructor
  · rw [held_cons, underWay_cons]
    exact count
  · rw [held_cons, winning_cons]
    exact capped

theorem Balanced.move (positive : 0 < max) (balanced : Balanced max gc (task ::ₘ others))
    (moved : task.advance max gc () = some (gc', task')) :
    Balanced max gc' (task' ::ₘ others) := by
  obtain ⟨count, capped⟩ := balanced
  have below := winning_le_underWay max others
  rw [held_cons, underWay_cons] at count
  rw [held_cons, winning_cons] at capped
  cases task with
  | acquire =>
    simp only [advance, if_neg (Int.not_le.mpr positive), Option.some.injEq, Prod.mk.injEq] at moved
    obtain ⟨rfl, rfl⟩ := moved
    simp only [holds, pending, wins, reduceCtorEq, decide_false, Bool.toNat_false] at count capped
    constructor
    · simp only [held_cons, underWay_cons, holds, pending, reduceCtorEq, decide_false,
        Bool.toNat_false, Bool.toNat_true]
      omega
    · -- the counter covers all slots held, so whoever brings it to `max` at most may have one
      simp only [held_cons, winning_cons, holds, wins, reduceCtorEq, decide_false, Bool.toNat_false]
      by_cases fits : gc.count + 1 ≤ max
      · simp only [fits, decide_true, Bool.toNat_true]
        omega
      · simp only [fits, decide_false, Bool.toNat_false]
        omega
  | compare value =>
    simp only [advance, Option.some.injEq, Prod.mk.injEq] at moved
    obtain ⟨rfl, rfl⟩ := moved
    simp only [holds, pending, wins, reduceCtorEq, decide_false, Bool.toNat_false,
      Bool.toNat_true] at count capped
    by_cases above : max < value
    · rw [if_pos above]
      constructor
      · simp only [held_cons, underWay_cons, holds, pending, reduceCtorEq, decide_false,
          Bool.toNat_false, Bool.toNat_true]
        omega
      · simp only [held_cons, winning_cons, holds, wins, reduceCtorEq, decide_false,
          Bool.toNat_false]
        omega
    · rw [if_neg above]
      simp only [Int.not_lt.mp above, decide_true, Bool.toNat_true] at capped
      constructor
      · simp only [held_cons, underWay_cons, holds, pending, decide_true, Bool.toNat_false,
          Bool.toNat_true]
        omega
      · simp only [held_cons, winning_cons, holds, wins, decide_true, Bool.toNat_false,
          Bool.toNat_true]
        omega
  | undo =>
    cases moved
    simp only [holds, pending, wins, reduceCtorEq, decide_false, Bool.toNat_false,
      Bool.toNat_true] at count capped
    constructor
    · simp only [held_cons, underWay_cons, holds, pending, reduceCtorEq, decide_false,
        Bool.toNat_false]
      omega
    · simp only [held_cons, winning_cons, holds, wins, reduceCtorEq, decide_false, Bool.toNat_false]
      omega
  | guard guard =>
    obtain ⟨released⟩ := guard
    cases moved
    cases released <;>
      simp only [holds, pending, wins, decide_true, reduceCtorEq, decide_false, Bool.toNat_false,
        Bool.toNat_true, GuardTask.guard.injEq, GlobalConnectionGuard.mk.injEq] at count capped
    all_goals
      constructor
      · simp only [held_cons, underWay_cons, holds, pending, reduceCtorEq, decide_false,
          Bool.toNat_false, Bool.false_eq_true, if_false, if_true]
        omega
      · simp only [held_cons, winning_cons, holds, wins, reduceCtorEq, decide_false,
          Bool.toNat_false]
        omega
  | rejected => cases moved
  | dropped => cases moved

/-- Never more slots than `max` are held, the counter is always the slots held and the acquires
under way, and it is the slots held when there are none of those. -/
theorem globalConnections_capped (max : Int) (positive : 0 < max)
    (events : List (Threads.Event GuardTask Unit)) :
    Always (Threads.step GuardTask.fresh (GuardTask.advance max))
      (fun pool =>
        (held pool.threads : Int) ≤ max ∧
        pool.shared.count = held pool.threads + underWay pool.threads ∧
        ((∀ task ∈ pool.threads, ¬ task.pending) → pool.shared.count = held pool.threads))
      ⟨⟨0⟩, []⟩ events := by
  have balanced : Always (Threads.step GuardTask.fresh (GuardTask.advance max))
      (fun pool => Balanced max pool.shared pool.threads) ⟨⟨0⟩, []⟩ events := by
    refine always_of_keep (fun pool event next holds stepped => ?_) events ?_
    · refine @step_bag _ _ _ GuardTask.fresh (GuardTask.advance max) (Balanced max)
        (fun _ _ _ => True) ?_ ?_ _ _ _ holds (amongCond_of_forall fun _ _ _ => trivial) stepped
      · exact fun _ _ _ before fresh => Balanced.spawn before fresh
      · exact fun _ _ _ _ _ _ before _ moved => Balanced.move positive before moved
    · constructor
      · rfl
      · exact Int.le_of_lt positive
  refine balanced.imp fun pool ⟨count, capped⟩ => ?_
  refine ⟨by omega, count, fun quiescent => ?_⟩
  have none : underWay pool.threads = 0 := Multiset.countP_eq_zero.mpr quiescent
  omega

/-- Three acquires at once where two may have a slot: the last to add one takes it back, after
the first has dropped its guard. -/
theorem globalConnections_capped_two :
    (0 : Int) < 2 ∧
    Always (Threads.step GuardTask.fresh (GuardTask.advance 2))
      (fun pool =>
        (held pool.threads : Int) ≤ 2 ∧
        pool.shared.count = held pool.threads + underWay pool.threads ∧
        ((∀ task ∈ pool.threads, ¬ task.pending) → pool.shared.count = held pool.threads))
      ⟨⟨0⟩, []⟩
      [.spawn .acquire, .spawn .acquire, .spawn .acquire, .move 0 (), .move 1 (), .move 2 (),
        .move 0 (), .move 1 (), .move 2 (), .move 0 (), .move 2 ()] :=
  ⟨by decide, globalConnections_capped 2 (by decide) _⟩

end GlobalCap

/-! ### New connections of an IP -/

structure RateWindow where
  start : Instant
  count : UInt32
  deriving DecidableEq

structure ConnectionRates where
  windows : HashMap Text RateWindow

namespace ConnectionRates

def maxTrackedIps : Nat := 250000

def sweepCutoff : Nat := 600 * nanosPerSecond

def empty : ConnectionRates := ⟨∅⟩

/-- The table is full, and a new IP is not tracked. -/
def failsOpen (self : ConnectionRates) (ip : Text) : Bool :=
  maxTrackedIps ≤ self.windows.entries.length ∧ (self.windows.lookup ip).isNone

/-- The window that counts at `now`: a new one where there is none, or where it is over. -/
def currentWindow (self : ConnectionRates) (now : Instant) (ip : Text) (window : Nat) :
    RateWindow :=
  match self.windows.lookup ip with
  | none => ⟨now, 0⟩
  | some w => if window ≤ now - w.start then ⟨now, 0⟩ else w

def tryAcquire (self : ConnectionRates) (now : Instant) (ip : Text) (max : UInt32)
    (window : Nat) : ConnectionRates × Bool :=
  if self.failsOpen ip then (self, true)
  else
    let w := self.currentWindow now ip window
    -- `fetch_add(1) + 1`, which wraps
    (⟨self.windows.insert ip { w with count := w.count + 1 }⟩, w.count + 1 ≤ max)

/-- `now.checked_sub(SWEEP_CUTOFF)` is `none` where the clock has not run that long. -/
def drops (now : Instant) (w : RateWindow) : Bool :=
  sweepCutoff ≤ now ∧ w.start < now - sweepCutoff

def sweep (self : ConnectionRates) (now : Instant) : ConnectionRates :=
  ⟨self.windows.retain fun _ w => !drops now w⟩

end ConnectionRates

inductive RateCall where
  | tryAcquire (now : Instant) (ip : Text)
  | sweep (now : Instant)

def RateCall.now : RateCall → Instant
  | .tryAcquire now _ | .sweep now => now

/-- The table with the time of the last call. Only the statements read `admitted`, the calls
that were let through. -/
structure RateHistory where
  rates : ConnectionRates
  clock : Instant
  admitted : List (Text × Instant)

namespace RateHistory

open FixedWindow ConnectionRates

def start : RateHistory := ⟨.empty, 0, []⟩

/-- When the connections of `ip` were admitted. -/
def times (s : RateHistory) (ip : Text) : List Instant :=
  (s.admitted.filter fun entry => entry.1 = ip).map Prod.snd

section

variable (max : UInt32) (window : Nat)

/-- One call; time does not go back. -/
def step (s : RateHistory) (call : RateCall) : Option RateHistory :=
  if call.now < s.clock then none
  else match call with
    | .tryAcquire now ip =>
      let (rates, admitted) := s.rates.tryAcquire now ip max window
      some ⟨rates, now, if admitted then (ip, now) :: s.admitted else s.admitted⟩
    | .sweep now => some ⟨s.rates.sweep now, now, s.admitted⟩

/-- In an interval that is shorter than the window, an IP is admitted twice `max` times at
most. -/
def RateBounded (s : RateHistory) : Prop :=
  ∀ ip a b, b < a + window → (s.times ip).countP (fun t => a ≤ t ∧ t ≤ b) ≤ 2 * max.toNat

/-- The table is not full. -/
def Roomy (s : RateHistory) (_ : RateCall) : Prop :=
  s.rates.windows.entries.length < maxTrackedIps

/-- A sweep drops no window that is not over, and the count of a window does not wrap. -/
def Undisturbed (s : RateHistory) : RateCall → Prop
  | .tryAcquire now ip => ∀ w ∈ s.rates.windows.lookup ip, now - w.start < window →
      w.count.toNat + 1 < 2 ^ 32
  | .sweep now => ∀ entry ∈ s.rates.windows.entries, drops now entry.2 →
      window ≤ now - entry.2.start

instance (s : RateHistory) (call : RateCall) : Decidable (Roomy s call) :=
  inferInstanceAs (Decidable (_ < _))

instance (s : RateHistory) (call : RateCall) : Decidable (Undisturbed window s call) := by
  unfold Undisturbed
  split <;> infer_instance

end

/-- No window that is at most ten minutes long is dropped before it is over. -/
theorem undisturbed_sweep {window : Nat} (short : window ≤ sweepCutoff) (s : RateHistory)
    (now : Instant) : Undisturbed window s (.sweep now) := by
  intro entry _ dropped
  simp only [drops, decide_eq_true_eq] at dropped
  have past : entry.2.start + sweepCutoff < now := Nat.add_lt_of_lt_sub dropped.2
  rw [Nat.add_comm] at past
  exact Nat.le_trans short (Nat.le_sub_of_add_le (Nat.le_of_lt past))

variable {max : UInt32} {window : Nat} {s s' : RateHistory} {call : RateCall} {now : Instant}
  {ip : Text}

/-- How the window of an IP stands to the times of its admissions. If the IP is not tracked, any
window that starts from now on is a new one. -/
def Paces (max : UInt32) (window : Nat) (clock : Instant) (times : List Instant) :
    Option RateWindow → Prop
  | none => ∀ now, clock ≤ now → (∀ t ∈ times, t < now) ∧ Paced window max.toNat now times
  | some w => w.start ≤ clock ∧ Paced window max.toNat w.start times ∧
      between w.start (w.start + window) times ≤ w.count.toNat

/-- So it is for every IP. -/
def AllPaced (max : UInt32) (window : Nat) (s : RateHistory) : Prop :=
  ∀ ip, Paces max window s.clock (s.times ip) (s.rates.windows.lookup ip)

theorem Paces.mono {clock : Instant} {times : List Instant} {w : Option RateWindow}
    (paces : Paces max window clock times w) (forth : clock ≤ now) :
    Paces max window now times w := by
  cases w with
  | none => exact fun later after => paces later (Nat.le_trans forth after)
  | some w => exact ⟨Nat.le_trans paces.1 forth, paces.2⟩

/-- The window that a call is counted in has begun, is not over and has counted every
admission since. -/
theorem AllPaced.currentWindow (paced : AllPaced max window s) (positive : 0 < window)
    (forth : s.clock ≤ now) (ip : Text) :
    now < (s.rates.currentWindow now ip window).start + window ∧
      Paces max window now (s.times ip) (some (s.rates.currentWindow now ip window)) := by
  have fresh (early : ∀ t ∈ s.times ip, t < now)
      (paced : Paced window max.toNat now (s.times ip)) :
      now < now + window ∧ Paces max window now (s.times ip) (some ⟨now, 0⟩) := by
    refine ⟨Nat.lt_add_of_pos_right positive, Nat.le_refl now, paced, ?_⟩
    rw [between_eq_zero early]
    exact Nat.zero_le _
  have paces := paced ip
  unfold ConnectionRates.currentWindow
  cases tracked : s.rates.windows.lookup ip with
  | none =>
    rw [tracked] at paces
    obtain ⟨early, paced⟩ := paces now forth
    exact fresh early paced
  | some w =>
    rw [tracked] at paces
    obtain ⟨begun, paced, counted⟩ := paces
    have begun := Nat.le_trans begun forth
    dsimp only
    split
    next elapsed =>
      obtain ⟨early, paced⟩ := paced.restart (Nat.add_le_of_le_sub' begun elapsed)
      exact fresh early paced
    next running =>
      exact ⟨(Nat.sub_lt_iff_lt_add' begun).mp (Nat.lt_of_not_le running), begun, paced, counted⟩

/-- A call is counted, and admitted as long as the count is `max` at most. -/
theorem Paces.count {w : RateWindow} {times : List Instant}
    (paces : Paces max window now times (some w)) (inside : now < w.start + window)
    (unwrapped : w.count.toNat + 1 < 2 ^ 32) :
    Paces max window now (if w.count + 1 ≤ max then now :: times else times)
      (some { w with count := w.count + 1 }) := by
  obtain ⟨begun, paced, counted⟩ := paces
  have next : (w.count + 1).toNat = w.count.toNat + 1 := by
    rw [UInt32.toNat_add]
    exact Nat.mod_eq_of_lt unwrapped
  split
  next fits =>
    have room : w.count.toNat + 1 ≤ max.toNat := next ▸ UInt32.le_iff_toNat_le.mp fits
    refine ⟨begun, paced.admit begun inside (by omega), ?_⟩
    rw [between_cons, if_pos ⟨begun, inside⟩]
    dsimp only
    omega
  next =>
    refine ⟨begun, paced, ?_⟩
    dsimp only
    omega

private theorem times_cons (s : RateHistory) (rates : ConnectionRates) (clock : Instant)
    (ip other : Text) :
    times ⟨rates, clock, (ip, now) :: s.admitted⟩ other =
      if ip = other then now :: s.times other else s.times other := by
  unfold times
  by_cases same : ip = other <;> simp [same]

theorem AllPaced.tryAcquire (paced : AllPaced max window s) (positive : 0 < window)
    (forth : s.clock ≤ now) (room : ¬ s.rates.failsOpen ip)
    (unwrapped : (s.rates.currentWindow now ip window).count.toNat + 1 < 2 ^ 32)
    (stepped : step max window s (.tryAcquire now ip) = some s') : AllPaced max window s' := by
  simp only [step, RateCall.now, if_neg (Nat.not_lt_of_le forth), ConnectionRates.tryAcquire,
    if_neg room, decide_eq_true_eq, Option.some.injEq] at stepped
  subst stepped
  intro other
  dsimp only
  have times : (times ⟨⟨s.rates.windows.insert ip
        { s.rates.currentWindow now ip window with
          count := (s.rates.currentWindow now ip window).count + 1 }⟩, now,
      if (s.rates.currentWindow now ip window).count + 1 ≤ max then (ip, now) :: s.admitted
      else s.admitted⟩ other) =
      if ip = other then
        if (s.rates.currentWindow now ip window).count + 1 ≤ max then now :: s.times other
        else s.times other
      else s.times other := by
    by_cases fits : (s.rates.currentWindow now ip window).count + 1 ≤ max
    · simp only [if_pos fits, times_cons]
    · simp only [if_neg fits, ite_self]
      rfl
  rw [times, HashMap.lookup_insert_eq]
  by_cases same : ip = other
  · subst same
    obtain ⟨inside, paces⟩ := paced.currentWindow positive forth ip
    rw [if_pos rfl, if_pos rfl]
    exact paces.count inside unwrapped
  · rw [if_neg same, if_neg (Ne.symm same)]
    exact (paced other).mono forth

theorem AllPaced.sweep (paced : AllPaced max window s) (forth : s.clock ≤ now)
    (spared : Undisturbed window s (.sweep now)) :
    AllPaced max window ⟨s.rates.sweep now, now, s.admitted⟩ := by
  intro ip
  have paces := (paced ip).mono forth
  dsimp only [ConnectionRates.sweep]
  rw [HashMap.lookup_retain]
  cases tracked : s.rates.windows.lookup ip with
  | none =>
    rw [tracked] at paces
    exact paces
  | some w =>
    rw [tracked] at paces
    cases dropped : drops now w with
    | false =>
      rw [Option.filter_some_pos (by simp [dropped])]
      exact paces
    | true =>
      -- the window is over, so the next one starts late enough
      rw [Option.filter_some_neg (by simp [dropped])]
      obtain ⟨begun, paced, -⟩ := paces
      have elapsed := spared ⟨ip, w⟩ (HashMap.mem_entries_iff.mpr tracked) dropped
      intro later after
      exact paced.restart (Nat.le_trans (Nat.add_le_of_le_sub' begun elapsed) after)

theorem AllPaced.step (positive : 0 < window) (paced : AllPaced max window s)
    (roomy : Roomy s call) (undisturbed : Undisturbed window s call)
    (stepped : step max window s call = some s') : AllPaced max window s' := by
  have forth : s.clock ≤ call.now := by
    refine Nat.le_of_not_lt fun back => ?_
    unfold RateHistory.step at stepped
    rw [if_pos back] at stepped
    cases stepped
  have zero : (0 : UInt32).toNat + 1 < 2 ^ 32 := by decide
  cases call with
  | tryAcquire now ip =>
    have room : ¬ s.rates.failsOpen ip := by
      simp only [failsOpen, decide_eq_true_eq, not_and]
      exact fun full => absurd roomy (Nat.not_lt_of_le full)
    refine paced.tryAcquire positive forth room ?_ stepped
    unfold ConnectionRates.currentWindow
    cases tracked : s.rates.windows.lookup ip with
    | none => exact zero
    | some w =>
      dsimp only
      split
      · exact zero
      next running => exact undisturbed w tracked (Nat.lt_of_not_le running)
  | sweep now =>
    unfold RateHistory.step at stepped
    rw [if_neg (Nat.not_lt_of_le forth)] at stepped
    cases stepped
    exact paced.sweep forth undisturbed

private theorem AllPaced.rateBounded (paced : AllPaced max window s) :
    RateBounded max window s := by
  intro ip a b short
  have bounded : between a (a + window) (s.times ip) ≤ 2 * max.toNat := by
    have paces := paced ip
    cases tracked : s.rates.windows.lookup ip with
    | none =>
      rw [tracked] at paces
      exact (paces s.clock (Nat.le_refl _)).2.bounded a
    | some w =>
      rw [tracked] at paces
      exact paces.2.1.bounded a
  refine Nat.le_trans (List.countP_mono_left fun t _ inside => ?_) bounded
  rw [decide_eq_true_iff] at inside ⊢
  exact ⟨inside.1, Nat.lt_of_le_of_lt inside.2 short⟩

/-- No interval that is shorter than the window holds more than twice `max` admissions of an IP,
as long as no sweep drops a window that is not over and no count wraps. -/
theorem rateBounded_of_undisturbed (max : UInt32) (window : Nat) (calls : List RateCall)
    (roomy : Guarded (step max window) Roomy start calls)
    (undisturbed : Guarded (step max window) (Undisturbed window) start calls) :
    Always (step max window) (RateBounded max window) start calls := by
  rcases Nat.eq_zero_or_pos window with rfl | positive
  · -- no interval is shorter than nothing
    refine always_of_keep (fun _ _ s' _ _ => ?_) calls ?_
    all_goals
      intro ip a b short
      refine Nat.le_trans (Nat.le_of_eq (List.countP_eq_zero.mpr fun t _ => ?_)) (Nat.zero_le _)
      rw [decide_eq_true_iff]
      intro inside
      exact absurd (Nat.le_trans inside.1 inside.2) (Nat.not_le_of_lt short)
  · have initial : AllPaced max window start := by
      intro _ _ _
      refine ⟨fun _ member => ?_, paced_nil⟩
      cases member
    have paced : Always (step max window) (AllPaced max window) start calls :=
      always_of_guarded (fun _ _ _ paced allowed stepped =>
        AllPaced.step positive paced allowed.1 allowed.2 stepped) initial (roomy.and undisturbed)
    exact paced.imp fun _ => AllPaced.rateBounded

def seconds (n : Nat) : Nat := n * nanosPerSecond

def visitor : Text := "198.51.100.7".toList

/-- Two connections in eight seconds: four are let through around the end of a window, and a
sweep finds the next window long over. -/
def aroundTheEdge : List RateCall :=
  [.tryAcquire (seconds 0) visitor, .tryAcquire (seconds 7) visitor,
    .tryAcquire (seconds 7) visitor, .tryAcquire (seconds 8) visitor,
    .tryAcquire (seconds 9) visitor, .tryAcquire (seconds 10) visitor, .sweep (seconds 700),
    .tryAcquire (seconds 701) visitor]

theorem rateBounded_aroundTheEdge :
    (Guarded (step 2 (seconds 8)) Roomy start aroundTheEdge ∧
      Guarded (step 2 (seconds 8)) (Undisturbed (seconds 8)) start aroundTheEdge) ∧
    Always (step 2 (seconds 8)) (RateBounded 2 (seconds 8)) start aroundTheEdge :=
  have roomy : Guarded (step 2 (seconds 8)) Roomy start aroundTheEdge := by decide
  have undisturbed : Guarded (step 2 (seconds 8)) (Undisturbed (seconds 8)) start aroundTheEdge :=
    by decide
  ⟨⟨roomy, undisturbed⟩, rateBounded_of_undisturbed 2 (seconds 8) aroundTheEdge roomy undisturbed⟩

/-- One connection an hour, and a sweep every eleven minutes. -/
def sweptWindows : List RateCall :=
  [.tryAcquire (seconds 1) visitor, .sweep (seconds 660), .tryAcquire (seconds 661) visitor,
    .sweep (seconds 1320), .tryAcquire (seconds 1321) visitor]

/-- Three connections are let through within 22 minutes. -/
theorem sweep_lifts_rate :
    ¬ ∀ (max : UInt32) (window : Nat) (calls : List RateCall),
      Guarded (step max window) Roomy start calls →
      Always (step max window) (RateBounded max window) start calls := by
  intro bounded
  have always := bounded 1 (seconds 3600) sweptWindows (by decide)
  have here : Always (step 1 (seconds 3600))
      (fun s => (s.times visitor).countP (fun t => seconds 1 ≤ t ∧ t ≤ seconds 1321) ≤ 2) start
      sweptWindows :=
    always.imp fun _ all => all visitor (seconds 1) (seconds 1321) (by decide)
  exact absurd here (by decide)

end RateHistory

end MCGate
