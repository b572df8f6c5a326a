import Mathlib.Algebra.Group.Int.Defs
import MCGate.Lib.Machine
import MCGate.State.RouteMetricsStore

/-!
# The reset schedule

A counter whose interval is positive is zeroed when its time has come, and its next time is a
whole number of intervals later, in the future however long the process was down. The time is
written by four paths: from a file, when a config is applied, by hand, and by the ticker. None
of them sets it further ahead than one interval, and none of them unsets it.
-/
namespace MCGate

open Config Machine

namespace RouteTrafficCounter

def zero (self : RouteTrafficCounter) (now : Int64) : RouteTrafficCounter :=
  { self with
    uploadBytes := 0
    downloadBytes := 0
    resetAt := if 0 < self.resetIntervalMillis then now + self.resetIntervalMillis else self.resetAt
    dirty := true }

/-- The loop body of `apply_scheduled_resets`. -/
def autoReset (now : Int64) (self : RouteTrafficCounter) : RouteTrafficCounter :=
  if self.resetIntervalMillis ≤ 0 ∨ self.resetAt ≤ 0 ∨ now < self.resetAt then self
  else
    let missed := (now - self.resetAt) / self.resetIntervalMillis
    { self with
      uploadBytes := 0
      downloadBytes := 0
      resetAt := self.resetAt + (missed + 1) * self.resetIntervalMillis
      dirty := true }

/-- What holds of every counter at a time: its next reset is set when it has an interval, and
no further ahead than that. -/
structure Scheduled (clock : Int64) (c : RouteTrafficCounter) : Prop where
  nonneg : 0 ≤ c.resetAt.toInt
  set : 0 < c.resetIntervalMillis.toInt → 0 < c.resetAt.toInt
  within : 0 < c.resetIntervalMillis.toInt →
    c.resetAt.toInt ≤ clock.toInt + c.resetIntervalMillis.toInt

/-- No sum of the time and the interval overflows. -/
def FitsAt (now interval : Int64) : Prop := now.toInt + interval.toInt < 2 ^ 63

instance (now interval : Int64) : Decidable (FitsAt now interval) :=
  inferInstanceAs (Decidable (_ < _))

variable {c : RouteTrafficCounter} {clock now : Int64}

private theorem toInt_add_of_fits {interval : Int64} (begun : 0 ≤ now.toInt)
    (positive : 0 < interval.toInt) (fits : FitsAt now interval) :
    (now + interval).toInt = now.toInt + interval.toInt := by
  unfold FitsAt at fits
  rw [Int64.toInt_add, Int.bmod_eq_of_le_mul_two (by omega) (by omega)]

theorem Scheduled.later (scheduled : Scheduled clock c) (forth : clock ≤ now) :
    Scheduled now c := by
  have le := Int64.le_iff_toInt_le.mp forth
  refine ⟨scheduled.nonneg, scheduled.set, fun positive => ?_⟩
  have within := scheduled.within positive
  omega

theorem Scheduled.flagged (scheduled : Scheduled clock c) (dirty : Bool) :
    Scheduled clock { c with dirty } :=
  ⟨scheduled.nonneg, scheduled.set, scheduled.within⟩

private theorem zero_scheduled (begun : 0 ≤ now.toInt) (nonneg : 0 ≤ c.resetAt.toInt)
    (fits : FitsAt now c.resetIntervalMillis) : Scheduled now (c.zero now) := by
  by_cases positive : 0 < c.resetIntervalMillis
  · have interval := Int64.lt_iff_toInt_lt.mp positive
    have sum := toInt_add_of_fits begun interval fits
    simp only [zero, if_pos positive]
    simp only [Int64.toInt_zero] at interval
    exact ⟨by dsimp only; omega, fun _ => by dsimp only; omega, fun _ => by dsimp only; omega⟩
  · have interval : ¬ 0 < c.resetIntervalMillis.toInt := fun h =>
      positive (Int64.lt_iff_toInt_lt.mpr (by simpa using h))
    simp only [zero, if_neg positive]
    exact ⟨nonneg, fun h => absurd h interval, fun h => absurd h interval⟩

private theorem configure_scheduled (m : RouteMetricsConfig) (begun : 0 ≤ now.toInt)
    (nonneg : 0 ≤ c.resetAt.toInt) (fits : FitsAt now m.resetIntervalMillis) :
    Scheduled now (c.configure m now) := by
  have positive_iff := @Int64.lt_iff_toInt_lt 0 m.resetIntervalMillis
  rw [Int64.toInt_zero] at positive_iff
  by_cases positive : 0 < m.resetIntervalMillis
  · have interval := positive_iff.mp positive
    have sum := toInt_add_of_fits begun interval fits
    have ahead := @Int64.lt_iff_toInt_lt (now + m.resetIntervalMillis) c.resetAt
    rw [sum] at ahead
    have unset := @Int64.toInt_inj c.resetAt 0
    rw [Int64.toInt_zero] at unset
    by_cases moved : c.resetAt = 0 ∨ now + m.resetIntervalMillis < c.resetAt
    · simp only [configure, nextReset, if_pos positive, if_pos moved]
      exact ⟨by dsimp only; omega, fun _ => by dsimp only; omega, fun _ => by dsimp only; omega⟩
    · simp only [configure, nextReset, if_pos positive, if_neg moved]
      rw [← unset, ahead] at moved
      exact ⟨nonneg, fun _ => by dsimp only; omega, fun _ => by dsimp only; omega⟩
  · have interval : ¬ 0 < m.resetIntervalMillis.toInt := mt positive_iff.mpr positive
    by_cases cleared : c.resetAt ≠ 0
    · simp only [configure, nextReset, if_neg positive, if_pos cleared]
      exact ⟨Int.le_refl _, fun h => absurd h interval, fun h => absurd h interval⟩
    · simp only [configure, nextReset, if_neg positive, if_neg cleared]
      exact ⟨nonneg, fun h => absurd h interval, fun h => absurd h interval⟩

/-- What `apply_scheduled_resets` does to a counter: nothing before its time; at its time or
later, both totals are zeroed and its time moves on by whole intervals, into the future but no
further than one interval. -/
inductive Ticked (now : Int64) (c c' : RouteTrafficCounter) : Prop
  | early (waits : c.resetIntervalMillis.toInt ≤ 0 ∨ now.toInt < c.resetAt.toInt) (same : c' = c)
  | reset (positive : 0 < c.resetIntervalMillis.toInt) (due : c.resetAt.toInt ≤ now.toInt)
      (zeroed : c'.uploadBytes = 0 ∧ c'.downloadBytes = 0)
      (missed : Nat) (moved : c' = { c with
        uploadBytes := 0, downloadBytes := 0, resetAt := c'.resetAt, dirty := true })
      (steps : c'.resetAt.toInt =
        c.resetAt.toInt + (missed + 1) * c.resetIntervalMillis.toInt)
      (future : now.toInt < c'.resetAt.toInt)
      (near : c'.resetAt.toInt ≤ now.toInt + c.resetIntervalMillis.toInt)

private theorem toInt_next (positive : 0 < c.resetIntervalMillis.toInt) (set : 0 < c.resetAt.toInt)
    (due : c.resetAt.toInt ≤ now.toInt) (fits : FitsAt now c.resetIntervalMillis) :
    (c.resetAt + ((now - c.resetAt) / c.resetIntervalMillis + 1) * c.resetIntervalMillis).toInt =
      c.resetAt.toInt +
        ((now.toInt - c.resetAt.toInt) / c.resetIntervalMillis.toInt + 1) *
          c.resetIntervalMillis.toInt := by
  unfold FitsAt at fits
  have low := Int.ediv_nonneg (show 0 ≤ now.toInt - c.resetAt.toInt by omega)
    (Int.le_of_lt positive)
  have below := Int.ediv_mul_le (now.toInt - c.resetAt.toInt) (Int.ne_of_gt positive)
  have small := Int.ediv_le_self c.resetIntervalMillis.toInt
    (show 0 ≤ now.toInt - c.resetAt.toInt by omega)
  have span : (now - c.resetAt).toInt = now.toInt - c.resetAt.toInt := by
    rw [Int64.toInt_sub, Int.bmod_eq_of_le_mul_two (by omega) (by omega)]
  have missed : ((now - c.resetAt) / c.resetIntervalMillis).toInt =
      (now.toInt - c.resetAt.toInt) / c.resetIntervalMillis.toInt := by
    rw [Int64.toInt_div, span, Int.tdiv_eq_ediv_of_nonneg (by omega),
      Int.bmod_eq_of_le_mul_two (by omega) (by omega)]
  generalize (now.toInt - c.resetAt.toInt) / c.resetIntervalMillis.toInt = q at *
  have next : ((now - c.resetAt) / c.resetIntervalMillis + 1).toInt = q + 1 := by
    rw [Int64.toInt_add, missed, Int64.toInt_one, Int.bmod_eq_of_le_mul_two (by omega) (by omega)]
  have whole : (q + 1) * c.resetIntervalMillis.toInt =
      q * c.resetIntervalMillis.toInt + c.resetIntervalMillis.toInt := by
    rw [Int.add_mul, Int.one_mul]
  have above := Int.mul_nonneg low (Int.le_of_lt positive)
  have steps : (((now - c.resetAt) / c.resetIntervalMillis + 1) * c.resetIntervalMillis).toInt =
      (q + 1) * c.resetIntervalMillis.toInt := by
    rw [Int64.toInt_mul, next, whole, Int.bmod_eq_of_le_mul_two (by omega) (by omega)]
  rw [Int64.toInt_add, steps, whole, Int.bmod_eq_of_le_mul_two (by omega) (by omega)]

private theorem autoReset_ticked (scheduled : Scheduled now c)
    (fits : 0 < c.resetIntervalMillis.toInt → FitsAt now c.resetIntervalMillis) :
    Ticked now c (c.autoReset now) := by
  unfold autoReset
  split
  next waits =>
    refine .early ?_ rfl
    have unset := scheduled.set
    simp only [Int64.le_iff_toInt_le, Int64.lt_iff_toInt_lt, Int64.toInt_zero] at waits
    omega
  next due =>
    simp only [Int64.le_iff_toInt_le, Int64.lt_iff_toInt_lt, Int64.toInt_zero, not_or,
      Int.not_le, Int.not_lt] at due
    obtain ⟨positive, set, due⟩ := due
    have moved := toInt_next positive set due (fits positive)
    have low := Int.ediv_nonneg (show 0 ≤ now.toInt - c.resetAt.toInt by omega)
      (Int.le_of_lt positive)
    have below := Int.ediv_mul_le (now.toInt - c.resetAt.toInt) (Int.ne_of_gt positive)
    have above := Int.lt_ediv_add_one_mul_self (now.toInt - c.resetAt.toInt) positive
    have whole := Int.add_mul ((now.toInt - c.resetAt.toInt) / c.resetIntervalMillis.toInt) 1
      c.resetIntervalMillis.toInt
    rw [Int.one_mul] at whole
    refine .reset positive due ⟨rfl, rfl⟩
      ((now.toInt - c.resetAt.toInt) / c.resetIntervalMillis.toInt).toNat rfl ?_ ?_ ?_
    · rw [moved, Int.toNat_of_nonneg low]
    · dsimp only
      omega
    · dsimp only
      omega

private theorem Ticked.scheduled {c c' : RouteTrafficCounter} (ticked : Ticked now c c')
    (scheduled : Scheduled now c) : Scheduled now c' := by
  cases ticked with
  | early _ same => rwa [same]
  | reset positive due zeroed missed moved steps future near =>
    have interval : c'.resetIntervalMillis = c.resetIntervalMillis := by rw [moved]
    have set := scheduled.set positive
    exact ⟨by omega, fun _ => by omega, fun _ => by rw [interval]; exact near⟩

end RouteTrafficCounter

namespace RouteMetricsStore

open RouteTrafficCounter

-- `tmpOf` is `Path::with_extension("tmp")`
variable (tmpOf : Text → Text)

/-- `zero` and the flush behind it. -/
def zeroCounter (env : Surroundings) (self : RouteMetricsStore) (arc : Nat) : RouteMetricsStore :=
  { self with
    allocated := self.allocated.modify arc fun c => c.zero env.nowMillis }.flushCounter tmpOf arc
      true env.nowMillis env.writes

def reset (self : RouteMetricsStore) (route : Config.Route) (env : Surroundings) :
    RouteMetricsStore × Option Nat :=
  match self.handle route with
  | none => (self, none)
  | some arc => (self.zeroCounter tmpOf env arc, some arc)

def arcs (self : RouteMetricsStore) : List Nat := self.counters.entries.map Sigma.snd

def resetAll (self : RouteMetricsStore) (env : Surroundings) : RouteMetricsStore × Nat :=
  (self.arcs.foldl (fun store arc => store.zeroCounter tmpOf env arc) self, self.arcs.length)

def applyScheduledResets (self : RouteMetricsStore) (now : Int64) : RouteMetricsStore :=
  { self with
    allocated := self.arcs.foldl
      (fun allocated arc => allocated.modify arc fun c => c.autoReset now) self.allocated }

end RouteMetricsStore

/-! ### Calls over time -/

/-- A call, or that the process starts anew: the counters are gone then, and the files stay. -/
inductive ScheduleCall where
  | applyConfig (routes : List Config.Route) (env : RouteMetricsStore.Surroundings)
  | reset (route : Config.Route) (env : RouteMetricsStore.Surroundings)
  | resetAll (env : RouteMetricsStore.Surroundings)
  | applyScheduledResets (nowMillis : Int64)
  | flushCounter (arc : Nat) (force : Bool) (env : RouteMetricsStore.Surroundings)
  | add (arc : Nat) (direction : Direction) (n : Int64) (nowMillis : Int64)
  | restart (nowMillis : Int64)

def ScheduleCall.now : ScheduleCall → Int64
  | .applyConfig _ env | .reset _ env | .resetAll env | .flushCounter _ _ env => env.nowMillis
  | .applyScheduledResets now | .add _ _ _ now | .restart now => now

/-- The store with the time of the last call. -/
structure Schedule where
  store : RouteMetricsStore
  clock : Int64

namespace Schedule

open RouteMetricsStore RouteTrafficCounter

def start : Schedule := ⟨⟨[], ∅, ∅⟩, 0⟩

section Step

-- `tmpOf` is `Path::with_extension("tmp")`
variable (tmpOf : Text → Text)

def call (store : RouteMetricsStore) : ScheduleCall → RouteMetricsStore
  | .applyConfig routes env => store.applyConfig tmpOf routes env
  | .reset route env => (store.reset tmpOf route env).1
  | .resetAll env => (store.resetAll tmpOf env).1
  | .applyScheduledResets now => store.applyScheduledResets now
  | .flushCounter arc force env => store.flushCounter tmpOf arc force env.nowMillis env.writes
  | .add arc direction n _ =>
    { store with allocated := store.allocated.modify arc fun c => c.add direction n }
  | .restart _ => { store with allocated := [], counters := ∅ }

/-- One call; time does not go back. -/
def step (s : Schedule) (event : ScheduleCall) : Option Schedule :=
  if event.now < s.clock then none else some ⟨call tmpOf s.store event, event.now⟩

end Step

/-- The sums of the time and an interval that a call makes do not overflow. -/
def Fits (s : Schedule) : ScheduleCall → Prop
  | .applyConfig routes env => ∀ key m, (desired routes ∅).lookup key = some m →
      FitsAt env.nowMillis m.resetIntervalMillis
  | .reset _ env | .resetAll env => ∀ arc ∈ s.store.arcs, ∀ c ∈ s.store.allocated[arc]?,
      FitsAt env.nowMillis c.resetIntervalMillis
  | .applyScheduledResets now => ∀ arc ∈ s.store.arcs, ∀ c ∈ s.store.allocated[arc]?,
      FitsAt now c.resetIntervalMillis
  | _ => True

/-- Every counter is scheduled, and every file has a time that can be loaded. -/
structure Sound (clock : Int64) (store : RouteMetricsStore) : Prop where
  registered : Registered store
  scheduled : ∀ c ∈ store.allocated, Scheduled clock c
  files : ∀ path data, store.files.lookup path = some (some data) →
    0 ≤ (data.resetAt.getD 0).toInt

variable {store : RouteMetricsStore} {clock now : Int64} {tmpOf : Text → Text}

theorem Sound.later (sound : Sound clock store) (forth : clock ≤ now) : Sound now store :=
  ⟨sound.registered, fun c member => (sound.scheduled c member).later forth, sound.files⟩

/-- A change of one counter keeps what it keeps of that counter. -/
theorem Sound.modify (sound : Sound clock store) (arc : Nat)
    {f : RouteTrafficCounter → RouteTrafficCounter} (name : ∀ c, (f c).key = c.key)
    (scheduled : ∀ c ∈ store.allocated[arc]?, Scheduled clock (f c)) :
    Sound clock { store with allocated := store.allocated.modify arc f } := by
  refine ⟨fun key place stored => ?_, fun c member => ?_, sound.files⟩
  · obtain ⟨c, here, named⟩ := sound.registered key place stored
    by_cases same : arc = place
    · subst same
      refine ⟨f c, ?_, (name c).trans named⟩
      rw [List.getElem?_modify_eq, here]
      rfl
    · exact ⟨c, (List.getElem?_modify_ne f _ same).trans here, named⟩
  · obtain ⟨place, here⟩ := List.mem_iff_getElem?.mp member
    by_cases same : arc = place
    · subst same
      rw [List.getElem?_modify_eq] at here
      obtain ⟨before, old, rfl⟩ := Option.map_eq_some_iff.mp here
      exact scheduled before old
    · rw [List.getElem?_modify_ne f _ same] at here
      exact sound.scheduled c (List.mem_of_getElem? here)

/-- A flush writes the time of its counter, and changes no counter but its flag. -/
theorem Sound.flushCounter (sound : Sound clock store) (arc : Nat) (force : Bool)
    (nowMillis : Int64) (writes : Bool) :
    Sound clock (store.flushCounter tmpOf arc force nowMillis writes) := by
  unfold RouteMetricsStore.flushCounter
  split
  next => exact sound
  next counter here =>
    have flagged (dirty : Bool) : store.allocated.set arc { counter with dirty } =
        store.allocated.modify arc fun c => { c with dirty } := by
      have : Inhabited RouteTrafficCounter := ⟨counter⟩
      rw [List.modify_eq_set, here]
      rfl
    have kept (dirty : Bool) := sound.modify arc (f := fun c => { c with dirty }) (fun _ => rfl)
      fun c there => (sound.scheduled c (List.mem_of_getElem? there)).flagged dirty
    split
    next => exact sound
    next path _ =>
      split
      · exact sound
      · rw [flagged, flagged]
        split
        · refine ⟨(kept false).registered, (kept false).scheduled, fun other data stored => ?_⟩
          rw [HashMap.lookup_insert_eq, HashMap.lookup_erase_eq] at stored
          split at stored
          · cases stored
            exact (sound.scheduled counter (List.mem_of_getElem? here)).nonneg
          · split at stored
            · cases stored
            · exact sound.files other data stored
        · exact kept true

theorem Sound.retire (wanted : HashMap Text RouteMetricsConfig) (env : Surroundings)
    (entries : List (Σ _ : Text, Nat)) (sound : Sound clock store) :
    Sound clock (RouteMetricsStore.retire tmpOf wanted env entries store) := by
  induction entries generalizing store with
  | nil => exact sound
  | cons entry rest ih =>
    unfold RouteMetricsStore.retire
    split
    · exact ih sound
    · exact ih (sound.flushCounter _ _ _ _)

private theorem loadPersisted_scheduled (key : Text) {file : Option UsageFile}
    (written : ∀ data ∈ file, 0 ≤ (data.resetAt.getD 0).toInt) :
    Scheduled now ((RouteTrafficCounter.new key).loadPersisted file) := by
  -- a new counter has no interval yet
  have idle {P : Prop} (positive : 0 < (RouteTrafficCounter.new key).resetIntervalMillis.toInt) :
      P := absurd positive (Int.lt_irrefl 0)
  cases file with
  | none => exact ⟨Int.le_refl 0, idle, idle⟩
  | some data => exact ⟨written data rfl, idle, idle⟩

private theorem forall_mem_modify {l : List RouteTrafficCounter} {good : RouteTrafficCounter → Prop}
    {f : RouteTrafficCounter → RouteTrafficCounter} (arc : Nat) (each : ∀ c ∈ l, good c)
    (changed : ∀ c ∈ l, good (f c)) : ∀ c ∈ l.modify arc f, good c := by
  intro c member
  obtain ⟨place, here⟩ := List.mem_iff_getElem?.mp member
  rw [List.getElem?_modify] at here
  obtain ⟨before, old, rfl⟩ := Option.map_eq_some_iff.mp here
  have inList := List.mem_of_getElem? old
  split
  · exact changed before inList
  · exact each before inList

/-- A counter is created with the time of its file, and scheduled right away. -/
theorem Sound.configureOne (sound : Sound now store) (begun : 0 ≤ now.toInt) (key : Text)
    (m : RouteMetricsConfig) (fits : FitsAt now m.resetIntervalMillis) :
    Sound now (store.configureOne key m now) := by
  refine ⟨(configureOne_grows sound.registered key m now).registered, ?_, ?_⟩
  · have configured {l : List RouteTrafficCounter} (each : ∀ c ∈ l, Scheduled now c) (arc : Nat) :
        ∀ c ∈ l.modify arc fun c => c.configure m now, Scheduled now c :=
      forall_mem_modify arc each fun c member =>
        configure_scheduled m begun (each c member).nonneg fits
    cases stored : store.counters.lookup key with
    | some arc =>
      simp only [RouteMetricsStore.configureOne, ensure, stored]
      exact configured sound.scheduled arc
    | none =>
      simp only [RouteMetricsStore.configureOne, ensure, stored]
      apply configured
      intro c member
      rcases List.mem_append.mp member with old | new
      · exact sound.scheduled c old
      · rw [List.mem_singleton.mp new]
        apply loadPersisted_scheduled
        intro data found
        cases content : m.file.bind store.files.lookup with
        | none => simp [content] at found
        | some read =>
          obtain ⟨path, -, there⟩ := Option.bind_eq_some_iff.mp content
          rw [content, Option.getD_some] at found
          rw [Option.mem_def.mp found] at there
          exact sound.files path data there
  · have same : (store.configureOne key m now).files = store.files := by
      cases stored : store.counters.lookup key <;>
        simp only [RouteMetricsStore.configureOne, ensure, stored]
    rw [same]
    exact sound.files

theorem Sound.configureAll (begun : 0 ≤ now.toInt) (entries : List (Σ _ : Text, RouteMetricsConfig))
    (fits : ∀ entry ∈ entries, FitsAt now entry.2.resetIntervalMillis) (sound : Sound now store) :
    Sound now (RouteMetricsStore.configureAll now entries store) := by
  induction entries generalizing store with
  | nil => exact sound
  | cons entry rest ih =>
    obtain ⟨first, later⟩ := List.forall_mem_cons.mp fits
    exact ih later (sound.configureOne begun entry.1 entry.2 first)

theorem Sound.applyConfig {routes : List Config.Route} {env : Surroundings}
    (sound : Sound env.nowMillis store) (begun : 0 ≤ env.nowMillis.toInt)
    (fits : ∀ key m, (desired routes ∅).lookup key = some m →
      FitsAt env.nowMillis m.resetIntervalMillis) :
    Sound env.nowMillis (store.applyConfig tmpOf routes env) := by
  have flushed : Sound env.nowMillis (RouteMetricsStore.retire tmpOf (desired routes ∅) env
      store.counters.entries store) :=
    Sound.retire (desired routes ∅) env store.counters.entries sound
  have kept : Sound env.nowMillis (store.retained tmpOf routes env) :=
    ⟨retained_registered tmpOf sound.registered routes env, flushed.scheduled, flushed.files⟩
  exact Sound.configureAll begun _
    (fun entry member => fits entry.1 entry.2 (HashMap.mem_entries_iff.mp member)) kept

/-- Zeroing schedules the counter anew, and leaves all intervals. -/
theorem Sound.zeroCounter {env : Surroundings} (sound : Sound env.nowMillis store)
    (begun : 0 ≤ env.nowMillis.toInt) {arc : Nat}
    (fits : ∀ c ∈ store.allocated[arc]?, FitsAt env.nowMillis c.resetIntervalMillis) :
    Sound env.nowMillis (store.zeroCounter tmpOf env arc) := by
  apply Sound.flushCounter
  refine sound.modify (f := fun c => c.zero env.nowMillis) arc (fun _ => rfl) fun c here => ?_
  exact zero_scheduled begun (sound.scheduled c (List.mem_of_getElem? here)).nonneg (fits c here)

private theorem map_modify_of_eq {β : Type} {l : List RouteTrafficCounter} (arc : Nat)
    {f : RouteTrafficCounter → RouteTrafficCounter} {g : RouteTrafficCounter → β}
    (same : ∀ c, g (f c) = g c) : (l.modify arc f).map g = l.map g := by
  apply List.ext_getElem?
  intro place
  rw [List.getElem?_map, List.getElem?_map, List.getElem?_modify]
  cases l[place]? with
  | none => rfl
  | some c => by_cases here : arc = place <;> simp [here, same]

private theorem intervals_flushCounter (arc : Nat) (force : Bool) (nowMillis : Int64)
    (writes : Bool) :
    (store.flushCounter tmpOf arc force nowMillis writes).allocated.map
      RouteTrafficCounter.resetIntervalMillis =
        store.allocated.map RouteTrafficCounter.resetIntervalMillis := by
  unfold RouteMetricsStore.flushCounter
  split
  next => rfl
  next counter here =>
    have same (dirty : Bool) : (store.allocated.set arc { counter with dirty }).map
        RouteTrafficCounter.resetIntervalMillis =
          store.allocated.map RouteTrafficCounter.resetIntervalMillis :=
      Threads.map_set_of_eq here rfl
    split
    next => rfl
    next =>
      split
      · rfl
      · split
        · exact same false
        · exact same true

private theorem intervals_zeroCounter (env : Surroundings) (arc : Nat) :
    (store.zeroCounter tmpOf env arc).allocated.map RouteTrafficCounter.resetIntervalMillis =
      store.allocated.map RouteTrafficCounter.resetIntervalMillis :=
  (intervals_flushCounter _ _ _ _).trans
    (map_modify_of_eq (f := fun c => c.zero env.nowMillis) arc fun _ => rfl)

/-- The intervals of these counters fit. -/
def IntervalsFit (store : RouteMetricsStore) (now : Int64) (arcs : List Nat) : Prop :=
  ∀ arc ∈ arcs, ∀ interval ∈ (store.allocated.map RouteTrafficCounter.resetIntervalMillis)[arc]?,
    FitsAt now interval

theorem IntervalsFit.counter {arcs : List Nat} (fits : IntervalsFit store now arcs) {arc : Nat}
    (member : arc ∈ arcs) {c : RouteTrafficCounter} (here : store.allocated[arc]? = some c) :
    FitsAt now c.resetIntervalMillis := by
  apply fits arc member
  rw [List.getElem?_map, here]
  rfl

private theorem intervalsFit_of_fits (fits : ∀ arc ∈ store.arcs, ∀ c ∈ store.allocated[arc]?,
    FitsAt now c.resetIntervalMillis) : IntervalsFit store now store.arcs := by
  intro arc member interval found
  rw [List.getElem?_map] at found
  obtain ⟨c, here, rfl⟩ := Option.map_eq_some_iff.mp found
  exact fits arc member c here

private theorem Sound.zeroAll {env : Surroundings} (begun : 0 ≤ env.nowMillis.toInt)
    (arcs : List Nat) (sound : Sound env.nowMillis store)
    (fits : IntervalsFit store env.nowMillis arcs) :
    Sound env.nowMillis (arcs.foldl (fun store arc => store.zeroCounter tmpOf env arc) store) := by
  induction arcs generalizing store with
  | nil => exact sound
  | cons arc rest ih =>
    have first : Sound env.nowMillis (store.zeroCounter tmpOf env arc) :=
      sound.zeroCounter begun fun c here => fits.counter List.mem_cons_self here
    apply ih first
    intro other member interval found
    rw [intervals_zeroCounter] at found
    exact fits other (List.mem_cons_of_mem _ member) interval found

/-! ### The ticker -/

/-- Each counter of the store is handed to the ticker once. -/
theorem nodup_arcs (registered : Registered store) : store.arcs.Nodup := by
  refine List.Nodup.map_on ?_ store.counters.nodupKeys.nodup
  rintro ⟨one, arc⟩ first ⟨two, arc'⟩ second rfl
  rw [registered.key_unique (HashMap.mem_entries_iff.mp first) (HashMap.mem_entries_iff.mp second)]

private theorem getElem?_foldl_modify (f : RouteTrafficCounter → RouteTrafficCounter)
    {arcs : List Nat} (distinct : arcs.Nodup) (l : List RouteTrafficCounter) (arc : Nat) :
    (arcs.foldl (fun l arc => l.modify arc f) l)[arc]? =
      if arc ∈ arcs then l[arc]?.map f else l[arc]? := by
  induction arcs generalizing l with
  | nil => rfl
  | cons first rest ih =>
    obtain ⟨once, distinct⟩ := List.nodup_cons.mp distinct
    rw [List.foldl_cons, ih distinct]
    by_cases here : first = arc
    · subst here
      rw [if_neg once, if_pos List.mem_cons_self, List.getElem?_modify_eq]
      rfl
    · have apart : arc ≠ first := fun same => here same.symm
      rw [List.getElem?_modify_ne f _ here]
      simp only [List.mem_cons, apart, false_or]

private theorem getElem?_applyScheduledResets (registered : Registered store) (now : Int64)
    (arc : Nat) :
    (store.applyScheduledResets now).allocated[arc]? =
      if arc ∈ store.arcs then store.allocated[arc]?.map fun c => c.autoReset now
      else store.allocated[arc]? :=
  getElem?_foldl_modify (fun c => c.autoReset now) (nodup_arcs registered) store.allocated arc

theorem Sound.applyScheduledResets (sound : Sound now store)
    (fits : IntervalsFit store now store.arcs) : Sound now (store.applyScheduledResets now) := by
  have after := getElem?_applyScheduledResets sound.registered now
  refine ⟨fun key arc stored => ?_, fun c member => ?_, sound.files⟩
  · obtain ⟨c, here, name⟩ := sound.registered key arc stored
    have tracked : arc ∈ store.arcs := List.mem_map_of_mem (HashMap.mem_entries_iff.mpr stored)
    refine ⟨c.autoReset now, by rw [after, if_pos tracked, here]; rfl, ?_⟩
    unfold autoReset
    split <;> exact name
  · obtain ⟨arc, here⟩ := List.mem_iff_getElem?.mp member
    rw [after] at here
    split at here
    next tracked =>
      obtain ⟨before, old, rfl⟩ := Option.map_eq_some_iff.mp here
      have scheduled := sound.scheduled before (List.mem_of_getElem? old)
      exact (autoReset_ticked scheduled fun _ => fits.counter tracked old).scheduled scheduled
    next => exact sound.scheduled c (List.mem_of_getElem? here)

/-! ### Every run -/

/-- Time has begun, and the store is sound. -/
def Inv (s : Schedule) : Prop := 0 ≤ s.clock.toInt ∧ Sound s.clock s.store

private theorem inv_start : Inv start :=
  ⟨Int.le_refl 0, nofun, nofun, fun path data stored => by cases stored⟩

theorem inv_step {s s' : Schedule} {event : ScheduleCall} (inv : Inv s) (fits : Fits s event)
    (stepped : step tmpOf s event = some s') : Inv s' := by
  unfold step at stepped
  split at stepped
  next => cases stepped
  next forth =>
    cases stepped
    obtain ⟨begun, sound⟩ := inv
    have order := Int64.not_lt.mp forth
    have le := Int64.le_iff_toInt_le.mp order
    -- the clock only goes forward, and a reset that is not too far ahead stays so
    have sound := sound.later order
    refine ⟨by dsimp only; omega, ?_⟩
    cases event with
    | applyConfig routes env => exact sound.applyConfig (Int.le_trans begun le) fits
    | reset route env =>
      simp only [call, RouteMetricsStore.reset]
      split
      next => exact sound
      next arc handled =>
        obtain ⟨key, -, stored⟩ := Option.bind_eq_some_iff.mp handled
        have tracked : arc ∈ s.store.arcs :=
          List.mem_map_of_mem (HashMap.mem_entries_iff.mpr stored)
        exact sound.zeroCounter (Int.le_trans begun le) (fits arc tracked)
    | resetAll env =>
      exact Sound.zeroAll (Int.le_trans begun le) _ sound (intervalsFit_of_fits fits)
    | applyScheduledResets now => exact sound.applyScheduledResets (intervalsFit_of_fits fits)
    | flushCounter arc force env => exact sound.flushCounter arc force env.nowMillis env.writes
    | add arc direction n now =>
      -- counting bytes leaves the schedule alone
      have same (c : RouteTrafficCounter) : (c.add direction n).key = c.key ∧
          (c.add direction n).resetAt = c.resetAt ∧
          (c.add direction n).resetIntervalMillis = c.resetIntervalMillis := by
        unfold RouteTrafficCounter.add
        split
        · cases direction <;> exact ⟨rfl, rfl, rfl⟩
        · exact ⟨rfl, rfl, rfl⟩
      refine sound.modify (f := fun c => c.add direction n) arc (fun c => (same c).1)
        fun c here => ?_
      obtain ⟨nonneg, set, within⟩ := sound.scheduled c (List.mem_of_getElem? here)
      obtain ⟨-, resetAt, interval⟩ := same c
      rw [← resetAt, ← interval] at set within
      exact ⟨by rw [resetAt]; exact nonneg, set, within⟩
    | restart now => exact ⟨nofun, nofun, sound.files⟩

/-- In every run, a counter with an interval has its next reset set, no further ahead than the
interval; and the ticker, whenever it runs, zeroes exactly those whose time has come, and moves
that time on by whole intervals to the first one in the future. -/
theorem resets_on_schedule (tmpOf : Text → Text) (events : List ScheduleCall) (s : Schedule)
    (ran : run (step tmpOf) start events = some s) (fits : Guarded (step tmpOf) Fits start events) :
    (∀ c ∈ s.store.allocated, 0 < c.resetIntervalMillis.toInt → 0 < c.resetAt.toInt ∧
      c.resetAt.toInt ≤ s.clock.toInt + c.resetIntervalMillis.toInt) ∧
    ∀ now, s.clock ≤ now → Fits s (.applyScheduledResets now) →
      ∀ key arc c, s.store.counters.lookup key = some arc → s.store.allocated[arc]? = some c →
        ∃ c', (s.store.applyScheduledResets now).allocated[arc]? = some c' ∧ Ticked now c c' ∧
          (0 < c.resetIntervalMillis.toInt → now.toInt < c'.resetAt.toInt ∧
            c'.resetAt.toInt ≤ now.toInt + c.resetIntervalMillis.toInt) := by
  have always : Always (step tmpOf) Inv start events :=
    always_of_guarded (fun _ _ _ inv fits stepped => inv_step inv fits stepped) inv_start fits
  obtain ⟨begun, sound⟩ := always_iff_prefixes.mp always events [] s (by simp) ran
  refine ⟨fun c member positive => ?_, fun now forth room key arc c stored here => ?_⟩
  · have scheduled := sound.scheduled c member
    exact ⟨scheduled.set positive, scheduled.within positive⟩
  · have later := sound.later forth
    have scheduled := later.scheduled c (List.mem_of_getElem? here)
    have tracked : arc ∈ s.store.arcs := List.mem_map_of_mem (HashMap.mem_entries_iff.mpr stored)
    have ticked := autoReset_ticked scheduled
      fun _ => (intervalsFit_of_fits room).counter tracked here
    refine ⟨c.autoReset now, ?_, ticked, fun positive => ?_⟩
    · rw [getElem?_applyScheduledResets later.registered, if_pos tracked, here]
      rfl
    · cases ticked with
      | early waits same =>
        rw [same]
        have within := scheduled.within positive
        omega
      | reset _ _ _ _ _ _ future near => exact ⟨future, near⟩

/-- A route whose upload is metered and reset every ten seconds. -/
def rollingRoute : Config.Route :=
  { hostPatterns := []
    backendTemplates := []
    strategy := .sequential
    cachePingTtlMillis := 10000
    fallback := none
    modifyVirtualHost := false
    proxyProtocol := false
    priority := 0
    reconnect := {}
    kickMessage := []
    voicechatTemplates := []
    metrics := some ⟨some "rolling.json".toList, ⟨true, -1⟩, .defaulted, 10000⟩ }

/-- The process goes down in the first interval, and comes up in the fifth. -/
def downtime : List ScheduleCall :=
  [.applyConfig [rollingRoute] ⟨1000, true⟩, .add 0 .upload 512 1500,
    .flushCounter 0 false ⟨1600, true⟩, .restart 45000, .applyConfig [rollingRoute] ⟨45000, true⟩]

private theorem fits_rollingRoute {now : Int64} (early : now.toInt < 2 ^ 62) (key : Text)
    (m : RouteMetricsConfig) (wanted : (desired [rollingRoute] ∅).lookup key = some m) :
    FitsAt now m.resetIntervalMillis := by
  have only : desired [rollingRoute] ∅ = (∅ : HashMap Text RouteMetricsConfig).insert
      "rolling.json".toList ⟨some "rolling.json".toList, ⟨true, -1⟩, .defaulted, 10000⟩ := rfl
  rw [only, HashMap.lookup_insert_eq] at wanted
  split at wanted
  · cases wanted
    change now.toInt + 10000 < 2 ^ 63
    omega
  · cases wanted

private theorem fits_downtime :
    Guarded (step fun path => path ++ ".tmp".toList) Fits start downtime :=
  ⟨fits_rollingRoute (by decide), fun _ _ => ⟨trivial, fun _ _ => ⟨trivial, fun _ _ =>
    ⟨trivial, fun _ _ => ⟨fits_rollingRoute (by decide), fun _ _ => trivial⟩⟩⟩⟩⟩

/-- The counter that is loaded after the downtime is reset by the first tick. -/
theorem rolling_on_schedule :
    ∃ s c, run (step fun path => path ++ ".tmp".toList) start downtime = some s ∧
      s.store.counters.lookup "rolling.json".toList = some 0 ∧ s.store.allocated[0]? = some c ∧
      ∃ c', (s.store.applyScheduledResets 45000).allocated[0]? = some c' ∧ Ticked 45000 c c' ∧
        (0 < c.resetIntervalMillis.toInt → (45000 : Int64).toInt < c'.resetAt.toInt ∧
          c'.resetAt.toInt ≤ (45000 : Int64).toInt + c.resetIntervalMillis.toInt) := by
  refine ⟨_, _, rfl, rfl, rfl, ?_⟩
  refine (resets_on_schedule _ downtime _ rfl fits_downtime).2 45000 (by decide) ?_
    "rolling.json".toList 0 _ rfl rfl
  intro arc member c here
  obtain rfl : arc = 0 := List.mem_singleton.mp member
  cases here
  decide

end Schedule

end MCGate
