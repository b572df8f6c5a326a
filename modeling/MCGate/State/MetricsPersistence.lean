import MCGate.State.MetricsTasks

/-!
# What is in the metrics files

A counter that is not dirty has its values in its file: whoever changes them sets `dirty`
afterwards, and a flush clears `dirty` before it reads them. That much holds for any order of the
steps. But a flush that has read the values may be overtaken by a later one, and then puts the
old values over the new ones, although nothing is dirty and no file operation has failed. As long
as the flushes of a counter reach its file in the order in which they cleared `dirty`, and nobody
else writes to it, the file is right whenever nothing is going on.
-/
namespace MCGate.MetricsTasks

open Config Machine Threads

/-- The bytes of both directions and the next reset. -/
abbrev Totals := Int64 × Int64 × Int64

def totals (counter : RouteTrafficCounter) : Totals :=
  (counter.uploadBytes, counter.downloadBytes, counter.resetAt)

/-- What `load_persisted` makes of a file, or of none. -/
def loadedTotals (content : Option (Option UsageFile)) : Totals :=
  totals ((RouteTrafficCounter.new []).loadPersisted (content.getD none))

/-- Unless a file operation failed, the file of each counter of the store that is not dirty
gives the values of the counter back. -/
def Shared.Persisted (s : Shared) : Prop :=
  s.failed = false → ∀ key arc cell path, s.counters.lookup key = some arc →
    s.cells[arc]? = some cell → cell.file = some path → cell.dirty = false →
    loadedTotals (s.files.lookup path) = totals cell.toRouteTrafficCounter

section Conditions

variable (tmpOf : Text → Text)

/-- The task has written its values to `file` and is about to rename it. -/
def awaits (file : Text) : Task → Bool
  | .rename _ path _ :: _ => decide (tmpOf path = file ∧ path ≠ file)
  | _ => false

/-- No other task is about to rename `file`, and if it is the file of a counter of the store,
that is the counter flushed, of which no later flush has reached the file. -/
def Free (s : Shared) (task : Task) (tasks : Multiset Task) (arc : Nat) (path : Text)
    (ticket : Nat) (file : Text) : Prop :=
  tasks.countP (fun other => awaits tmpOf file other) ≤ (awaits tmpOf file task).toNat ∧
    ∀ owner ∈ s.counters.lookup file, ∀ cell ∈ s.cells[owner]?, cell.tracked →
      owner = arc ∧ file = path ∧ cell.touched < ticket

/-- Whoever changes a file may; and a counter that had no file is given one that holds its
values, or is dirty. -/
def InOrder (s : Shared) (task : Task) (tasks : Multiset Task) : Prop :=
  match task with
  | .writeTmp arc path ticket _ :: _ => Free tmpOf s task tasks arc path ticket (tmpOf path)
  | .rename arc path ticket :: _ => tmpOf path ≠ path →
      Free tmpOf s task tasks arc path ticket path ∧
        Free tmpOf s task tasks arc path ticket (tmpOf path)
  | .setFile arc (some path) :: _ => ∀ cell ∈ s.cells[arc]?, cell.tracked ∨ cell.dirty ∨
      loadedTotals (s.files.lookup path) = totals cell.toRouteTrafficCounter
  | _ => True

instance (s : Shared) (task : Task) (tasks : Multiset Task) (arc : Nat) (path : Text)
    (ticket : Nat) (file : Text) : Decidable (Free tmpOf s task tasks arc path ticket file) :=
  inferInstanceAs (Decidable (_ ∧ _))

instance (s : Shared) (task : Task) (tasks : Multiset Task) :
    Decidable (InOrder tmpOf s task tasks) := by
  unfold InOrder
  split <;> infer_instance

end Conditions

/-! ### What an instruction does -/

namespace Instr

/-- The counter whose values the instruction changes, or may go on to change. -/
def changes : Instr → Option Nat
  | .fetchAdd arc _ _ | .storeBytes arc _ | .zeroResetAt arc | .storeResetAt arc _ => some arc
  | _ => none

/-- The instruction is of a flush that has cleared `dirty`. -/
def inFlight : Instr → Bool
  | .load _ _ _ _ | .writeTmp _ _ _ _ | .rename _ _ _ => true
  | _ => false

/-- The counter that is marked as dirty. -/
def marks : Instr → Option Nat
  | .storeDirty arc => some arc
  | _ => none

end Instr

/-- Every change of a task is followed by the mark that it makes. -/
def Flagged : Task → Prop
  | [] => True
  | instr :: rest => (∀ arc, instr.changes = some arc → Instr.storeDirty arc ∈ rest) ∧ Flagged rest

/-- A flush with this ticket may be under way: the counter has a file, of this name. -/
def Shared.Issued (s : Shared) (arc : Nat) (path : Text) (ticket : Nat) : Prop :=
  ∃ cell, s.cells[arc]? = some cell ∧ cell.tracked ∧ cell.key = path ∧ ticket ≤ cell.issued

/-- What is known of the counter that an instruction is about. -/
def Instr.Fits (s : Shared) : Instr → Prop
  | .swapDirty arc _ path => s.Issued arc path 0
  | .load arc path ticket _ | .writeTmp arc path ticket _ | .rename arc path ticket =>
    s.Issued arc path ticket
  | .setFile arc (some path) => ∃ cell, s.cells[arc]? = some cell ∧ cell.key = path
  | .ensure key m => ∀ path ∈ m.file, path = key
  | _ => True

/-- A change to a counter that leaves its name, its file and its flushes alone. -/
structure Cell.Mild (f : Cell → Cell) : Prop where
  key : ∀ cell, (f cell).key = cell.key
  file : ∀ cell, (f cell).file = cell.file
  tracked : ∀ cell, (f cell).tracked = cell.tracked
  issued : ∀ cell, (f cell).issued = cell.issued
  touched : ∀ cell, (f cell).touched = cell.touched

private theorem flagged_append {first rest : Task} (flagged : Flagged first)
    (later : Flagged rest) : Flagged (first ++ rest) := by
  induction first with
  | nil => exact later
  | cons instr first ih =>
    obtain ⟨mine, others⟩ := flagged
    refine ⟨fun arc changes => ?_, ih others⟩
    exact List.mem_append_left rest (mine arc changes)

private theorem flagged_of_forall {first : Task}
    (unchanging : ∀ instr ∈ first, instr.changes = none) : Flagged first := by
  induction first with
  | nil => trivial
  | cons instr first ih =>
    obtain ⟨mine, others⟩ := List.forall_mem_cons.mp unchanging
    refine ⟨fun arc changes => ?_, ih others⟩
    rw [mine] at changes
    cases changes

private theorem flagged_zero (arc : Nat) (force : Bool) :
    Flagged (Instr.zero arc ++ [.flushCounter arc force]) := by
  simp [Instr.zero, Flagged, Instr.changes]

private theorem flagged_flatMap {α : Type} {f : α → Task} (each : ∀ a, Flagged (f a))
    (xs : List α) : Flagged (xs.flatMap f) := by
  induction xs with
  | nil => trivial
  | cons x xs ih =>
    rw [List.flatMap_cons]
    exact flagged_append (each x) ih

/-- A counter that is asked for under the name of its file, if it has one. -/
theorem desired_file (routes : List Config.Route) {wanted : HashMap Text RouteMetricsConfig}
    (named : ∀ key m, wanted.lookup key = some m → ∀ path ∈ m.file, path = key) :
    ∀ key m, (desired routes wanted).lookup key = some m → ∀ path ∈ m.file, path = key := by
  induction routes generalizing wanted with
  | nil => exact named
  | cons route rest ih =>
    unfold desired
    split
    next key m found block =>
      apply ih
      intro other m' stored path file
      split at stored
      · exact named other m' stored path file
      · rw [HashMap.lookup_insert_eq] at stored
        split at stored
        next same =>
          cases stored
          simp only [keyFor, block] at found
          split at found
          · cases found
          · rw [Option.mem_def.mp file, Option.getD_some, Option.some.injEq] at found
            rw [same, found]
        next => exact named other m' stored path file
    next => exact ih named

/-- The file of a counter has its name; and a counter without one has no flushes. -/
structure Cell.Sound (cell : Cell) : Prop where
  file : ∀ path ∈ cell.file, path = cell.key ∧ cell.tracked
  unflushed : cell.tracked = false → cell.touched = cell.issued

/-- Every counter is sound, and those of the store are found under their names. -/
structure Shared.Sound (s : Shared) : Prop where
  cells : ∀ (arc : Nat) (cell : Cell), s.cells[arc]? = some cell → cell.Sound
  named : ∀ (key : Text) (arc : Nat), s.counters.lookup key = some arc →
    ∃ cell, s.cells[arc]? = some cell ∧ cell.key = key

section Effects

variable (tmpOf : Text → Text)

/-- The file that a flush has written. -/
def Shared.written (s : Shared) (arc : Nat) (path : Text) (ticket : Nat) (usage : UsageFile) :
    Shared :=
  let written := { s with files := s.files.insert (tmpOf path) (some usage) }
  if tmpOf path = path then written.modify arc fun cell => { cell with touched := ticket }
  else written

/-- And renamed. -/
def Shared.renamed (s : Shared) (arc : Nat) (path : Text) (ticket : Nat)
    (content : Option UsageFile) : Shared :=
  let renamed := { s with files := (s.files.erase (tmpOf path)).insert path content }
  if tmpOf path = path then renamed
  else renamed.modify arc fun cell => { cell with touched := ticket }

/-- What an instruction does, and what takes its place. -/
inductive Effect (s : Shared) : Instr → Shared → List Instr → Prop
  | quiet {instr : Instr} {first : List Instr} (locked : Bool) : instr.inFlight = false →
      instr.marks = none → (∀ later ∈ first, later.Fits s) →
      (∀ rest, Flagged (instr :: rest) → Flagged (first ++ rest)) →
      Effect s instr { s with locked } first
  | store {instr : Instr} {arc : Nat} {f : Cell → Cell} : instr.inFlight = false →
      (∀ other, instr.marks = some other → other = arc) → Cell.Mild f →
      (∀ cell, s.cells[arc]? = some cell → (f cell).dirty ∨ instr.changes = some arc ∨
        instr.marks = none ∧ (f cell).dirty = cell.dirty ∧
          totals (f cell).toRouteTrafficCounter = totals cell.toRouteTrafficCounter) →
      Effect s instr (s.modify arc f) []
  | swap {arc : Nat} {force : Bool} {path : Text} {cell : Cell} : s.cells[arc]? = some cell →
      Effect s (.swapDirty arc force path)
        (s.modify arc fun cell => { cell with dirty := false, issued := cell.issued + 1 })
        [.load arc path (cell.issued + 1) ⟨none, none, none, none, none, none⟩]
  | loadMore {arc : Nat} {path : Text} {ticket : Nat} {usage more : UsageFile} {cell : Cell}
      {now : Int64} : s.cells[arc]? = some cell →
      loadNext usage cell.toRouteTrafficCounter now = some more →
      Effect s (.load arc path ticket usage) s [.load arc path ticket more]
  | loadAll {arc : Nat} {path : Text} {ticket : Nat} {usage : UsageFile} {cell : Cell}
      {now : Int64} : s.cells[arc]? = some cell →
      loadNext usage cell.toRouteTrafficCounter now = none →
      Effect s (.load arc path ticket usage) s [.writeTmp arc path ticket usage]
  | write {arc : Nat} {path : Text} {ticket : Nat} {usage : UsageFile} :
      Effect s (.writeTmp arc path ticket usage) (s.written tmpOf arc path ticket usage)
        [.rename arc path ticket]
  | rename {arc : Nat} {path : Text} {ticket : Nat} {content : Option UsageFile} :
      s.files.lookup (tmpOf path) = some content →
      Effect s (.rename arc path ticket) (s.renamed tmpOf arc path ticket content) []
  | fail {instr : Instr} {arc : Nat} : instr.inFlight → Effect s instr (s.fail arc) []
  | setFile {arc : Nat} {file : Option Text} :
      Effect s (.setFile arc file) (s.modify arc fun cell =>
        { cell with file, tracked := cell.tracked || file.isSome }) []
  | drop {key : Text} :
      Effect s (.drop key) { s with counters := s.counters.erase key } []
  | create {key : Text} {m : RouteMetricsConfig} {content : Option UsageFile} {failed : Bool} :
      s.counters.lookup key = none →
      (failed = false → s.failed = false ∧
        (m.file.isSome → content = (s.files.lookup key).getD none)) →
      Effect s (.ensure key m)
        { s with
          cells := s.cells ++ [.created key m content]
          counters := s.counters.insert key s.cells.length
          failed }
        (Instr.configure s.cells.length m)

variable {tmpOf : Text → Text} {s s' : Shared} {choice : Choice} {instr : Instr}
  {first : List Instr}

/-- An instruction that only reads, and puts others in its place that change nothing unmarked. -/
theorem Effect.reads (settled : instr.inFlight = false) (unmarked : instr.marks = none)
    (fits : ∀ later ∈ first, later.Fits s) (flagged : Flagged first) :
    Effect tmpOf s instr s first :=
  .quiet s.locked settled unmarked fits fun _ task => flagged_append flagged task.2

private theorem Instr.fits_configure {arc : Nat} {m : RouteMetricsConfig} {cell : Cell}
    (at_arc : s.cells[arc]? = some cell) (named : ∀ path ∈ m.file, path = cell.key) :
    ∀ later ∈ Instr.configure arc m, later.Fits s := by
  intro later member
  simp only [Instr.configure, List.mem_cons, List.not_mem_nil, or_false] at member
  rcases member with rfl | rfl | rfl | rfl | rfl | rfl | rfl
  · cases file : m.file with
    | none => trivial
    | some path => exact ⟨cell, at_arc, (named path file).symm⟩
  all_goals trivial

private theorem flagged_configure (arc : Nat) (m : RouteMetricsConfig) :
    Flagged (Instr.configure arc m) := by
  simp [Instr.configure, Flagged, Instr.changes]

private theorem Instr.fits_retire {wanted : HashMap Text RouteMetricsConfig}
    {entries : List (Σ _ : Text, Nat)} {later : Instr}
    (member : later ∈ Instr.retire wanted entries) : later.Fits s := by
  obtain ⟨entry, -, member⟩ := List.mem_flatMap.mp member
  split at member
  · cases member
  · simp only [List.mem_cons, List.not_mem_nil, or_false] at member
    rcases member with rfl | rfl <;> trivial

private theorem flagged_retire (wanted : HashMap Text RouteMetricsConfig)
    (entries : List (Σ _ : Text, Nat)) : Flagged (Instr.retire wanted entries) := by
  apply flagged_flatMap
  intro entry
  split <;> simp [Flagged, Instr.changes]

private theorem effect_add {arc : Nat} {direction : Direction} {n : Int64}
    (ran : (Instr.add arc direction n).exec tmpOf s choice = some (s', first)) :
    Effect tmpOf s (.add arc direction n) s' first := by
  simp only [Instr.exec, Option.bind_eq_bind, Option.bind_eq_some_iff, Option.pure_def,
    Option.some.injEq, Prod.mk.injEq] at ran
  obtain ⟨cell, -, rfl, rfl⟩ := ran
  split
  · exact .reads rfl rfl (by simp [Instr.Fits]) (by simp [Flagged, Instr.changes])
  · exact .reads rfl rfl (by simp) trivial

private theorem effect_fetchAdd {arc : Nat} {direction : Direction} {n : Int64}
    (ran : (Instr.fetchAdd arc direction n).exec tmpOf s choice = some (s', first)) :
    Effect tmpOf s (.fetchAdd arc direction n) s' first := by
  cases ran
  refine .store rfl (fun _ marks => by cases marks) ?_ fun _ _ => .inr (.inl rfl)
  cases direction <;> exact ⟨fun _ => rfl, fun _ => rfl, fun _ => rfl, fun _ => rfl, fun _ => rfl⟩

private theorem effect_storeDirty {arc : Nat}
    (ran : (Instr.storeDirty arc).exec tmpOf s choice = some (s', first)) :
    Effect tmpOf s (.storeDirty arc) s' first := by
  cases ran
  refine .store rfl (fun _ marks => (Option.some.inj marks).symm) ?_ fun _ _ => .inl rfl
  exact ⟨fun _ => rfl, fun _ => rfl, fun _ => rfl, fun _ => rfl, fun _ => rfl⟩

private theorem effect_storeBytes {arc : Nat} {direction : Direction}
    (ran : (Instr.storeBytes arc direction).exec tmpOf s choice = some (s', first)) :
    Effect tmpOf s (.storeBytes arc direction) s' first := by
  cases ran
  refine .store rfl (fun _ marks => by cases marks) ?_ fun _ _ => .inr (.inl rfl)
  cases direction <;> exact ⟨fun _ => rfl, fun _ => rfl, fun _ => rfl, fun _ => rfl, fun _ => rfl⟩

private theorem effect_storeResetAt {arc : Nat} {resetAt : Int64}
    (ran : (Instr.storeResetAt arc resetAt).exec tmpOf s choice = some (s', first)) :
    Effect tmpOf s (.storeResetAt arc resetAt) s' first := by
  cases ran
  refine .store rfl (fun _ marks => by cases marks) ?_ fun _ _ => .inr (.inl rfl)
  exact ⟨fun _ => rfl, fun _ => rfl, fun _ => rfl, fun _ => rfl, fun _ => rfl⟩

private theorem effect_storeSetting {arc : Nat} {setting : Setting}
    (ran : (Instr.storeSetting arc setting).exec tmpOf s choice = some (s', first)) :
    Effect tmpOf s (.storeSetting arc setting) s' first := by
  cases ran
  refine .store rfl (fun _ marks => by cases marks) ?_ fun _ _ => .inr (.inr ⟨rfl, ?_⟩)
  · cases setting <;>
      exact ⟨fun _ => rfl, fun _ => rfl, fun _ => rfl, fun _ => rfl, fun _ => rfl⟩
  · cases setting <;> exact ⟨rfl, rfl⟩

private theorem effect_zeroResetAt {arc : Nat}
    (ran : (Instr.zeroResetAt arc).exec tmpOf s choice = some (s', first)) :
    Effect tmpOf s (.zeroResetAt arc) s' first := by
  simp only [Instr.exec, Option.bind_eq_bind, Option.bind_eq_some_iff, Option.pure_def,
    Option.some.injEq, Prod.mk.injEq] at ran
  obtain ⟨cell, -, rfl, rfl⟩ := ran
  refine .quiet s.locked rfl rfl (fun later member => ?_) fun rest flagged => ?_
  · split at member
    · rw [List.mem_singleton.mp member]
      trivial
    · cases member
  · split
    · exact ⟨fun _ changes => flagged.1 _ changes, flagged.2⟩
    · exact flagged.2

private theorem effect_flushCounter (sound : s.Sound) {arc : Nat} {force : Bool}
    (ran : (Instr.flushCounter arc force).exec tmpOf s choice = some (s', first)) :
    Effect tmpOf s (.flushCounter arc force) s' first := by
  simp only [Instr.exec, Option.bind_eq_bind, Option.bind_eq_some_iff] at ran
  obtain ⟨cell, at_arc, ran⟩ := ran
  split at ran
  · cases ran
    exact .reads rfl rfl (by simp) trivial
  next path file =>
    cases ran
    obtain ⟨named, tracked⟩ := (sound.cells arc cell at_arc).file path file
    refine .reads rfl rfl (fun later member => ?_) (by simp [Flagged, Instr.changes])
    rw [List.mem_singleton.mp member]
    exact ⟨cell, at_arc, tracked, named.symm, Nat.zero_le _⟩

private theorem effect_swapDirty {arc : Nat} {force : Bool} {path : Text}
    (ran : (Instr.swapDirty arc force path).exec tmpOf s choice = some (s', first)) :
    Effect tmpOf s (.swapDirty arc force path) s' first := by
  simp only [Instr.exec, Option.bind_eq_bind, Option.bind_eq_some_iff] at ran
  obtain ⟨cell, at_arc, ran⟩ := ran
  split at ran
  next clean =>
    cases ran
    refine .store rfl (fun _ marks => by cases marks)
      ⟨fun _ => rfl, fun _ => rfl, fun _ => rfl, fun _ => rfl, fun _ => rfl⟩ ?_
    intro other here
    rw [at_arc, Option.some.injEq] at here
    subst here
    exact .inr (.inr ⟨rfl, (Bool.eq_false_iff.mpr clean.2).symm, rfl⟩)
  · cases ran
    exact .swap at_arc

private theorem effect_load {arc : Nat} {path : Text} {ticket : Nat} {usage : UsageFile}
    (ran : (Instr.load arc path ticket usage).exec tmpOf s choice = some (s', first)) :
    Effect tmpOf s (.load arc path ticket usage) s' first := by
  simp only [Instr.exec, Option.bind_eq_bind, Option.bind_eq_some_iff] at ran
  obtain ⟨cell, at_arc, ran⟩ := ran
  split at ran
  next more next =>
    cases ran
    exact .loadMore at_arc next
  next all =>
    cases ran
    exact .loadAll at_arc all

private theorem effect_writeTmp {arc : Nat} {path : Text} {ticket : Nat} {usage : UsageFile}
    (ran : (Instr.writeTmp arc path ticket usage).exec tmpOf s choice = some (s', first)) :
    Effect tmpOf s (.writeTmp arc path ticket usage) s' first := by
  simp only [Instr.exec] at ran
  split at ran
  · simp only [Option.some.injEq, Prod.mk.injEq] at ran
    obtain ⟨rfl, rfl⟩ := ran
    exact .write
  · cases ran
    exact .fail rfl

private theorem effect_rename {arc : Nat} {path : Text} {ticket : Nat}
    (ran : (Instr.rename arc path ticket).exec tmpOf s choice = some (s', first)) :
    Effect tmpOf s (.rename arc path ticket) s' first := by
  simp only [Instr.exec] at ran
  split at ran
  next content found _ =>
    simp only [Option.some.injEq, Prod.mk.injEq] at ran
    obtain ⟨rfl, rfl⟩ := ran
    exact .rename found
  · cases ran
    exact .fail rfl

private theorem effect_collectResets {now : Int64}
    (ran : (Instr.collectResets now).exec tmpOf s choice = some (s', first)) :
    Effect tmpOf s (.collectResets now) s' first := by
  simp only [Instr.exec] at ran
  split at ran
  · cases ran
  · cases ran
    exact .reads rfl rfl (by simp [Instr.Fits]) (flagged_of_forall (by simp [Instr.changes]))

private theorem effect_loadInterval {arc : Nat} {now : Int64}
    (ran : (Instr.loadInterval arc now).exec tmpOf s choice = some (s', first)) :
    Effect tmpOf s (.loadInterval arc now) s' first := by
  simp only [Instr.exec, Option.bind_eq_bind, Option.bind_eq_some_iff] at ran
  obtain ⟨cell, -, ran⟩ := ran
  cases ran
  exact .reads rfl rfl (by simp [Instr.Fits]) (by simp [Flagged, Instr.changes])

private theorem effect_loadResetAt {arc : Nat} {now interval : Int64}
    (ran : (Instr.loadResetAt arc now interval).exec tmpOf s choice = some (s', first)) :
    Effect tmpOf s (.loadResetAt arc now interval) s' first := by
  simp only [Instr.exec, Option.bind_eq_bind, Option.bind_eq_some_iff] at ran
  obtain ⟨cell, -, ran⟩ := ran
  split at ran
  · cases ran
    exact .reads rfl rfl (by simp) trivial
  · cases ran
    exact .reads rfl rfl (by simp [Instr.Fits]) (by simp [Flagged, Instr.changes])

private theorem effect_flushAll (ran : Instr.flushAll.exec tmpOf s choice = some (s', first)) :
    Effect tmpOf s .flushAll s' first := by
  simp only [Instr.exec] at ran
  split at ran
  · cases ran
  · cases ran
    exact .reads rfl rfl (by simp [Instr.Fits]) (flagged_of_forall (by simp [Instr.changes]))

private theorem effect_reset {route : Config.Route}
    (ran : (Instr.reset route).exec tmpOf s choice = some (s', first)) :
    Effect tmpOf s (.reset route) s' first := by
  simp only [Instr.exec] at ran
  split at ran
  · cases ran
  · split at ran
    · cases ran
      exact .reads rfl rfl (by simp) trivial
    · cases ran
      exact .reads rfl rfl (by simp [Instr.zero, Instr.Fits]) (flagged_zero _ _)

private theorem effect_resetAll (ran : Instr.resetAll.exec tmpOf s choice = some (s', first)) :
    Effect tmpOf s .resetAll s' first := by
  simp only [Instr.exec] at ran
  split at ran
  · cases ran
  · cases ran
    -- the lock is taken here; each counter is zeroed and flushed before it is given back
    refine .quiet true rfl rfl (fun later member => ?_) fun rest flagged => ?_
    · simp only [Instr.zero, List.mem_append, List.mem_flatMap, List.mem_cons,
        List.not_mem_nil, or_false] at member
      rcases member with ⟨arc, -, (rfl | rfl | rfl | rfl) | rfl⟩ | rfl
      all_goals trivial
    · refine flagged_append (flagged_append ?_ (by simp [Flagged, Instr.changes])) flagged.2
      exact flagged_flatMap (fun arc => flagged_zero arc true) _

private theorem effect_applyConfig {routes : List Config.Route}
    (ran : (Instr.applyConfig routes).exec tmpOf s choice = some (s', first)) :
    Effect tmpOf s (.applyConfig routes) s' first := by
  simp only [Instr.exec] at ran
  split at ran
  · cases ran
  · cases ran
    have named := @desired_file routes ∅ fun _ _ stored => by cases stored
    -- what is retired and what is wanted is fixed when the lock is taken
    refine .quiet true rfl rfl (fun later member => ?_) fun rest flagged => ?_
    · simp only [List.mem_append, List.mem_map, List.mem_singleton] at member
      rcases member with (retired | ⟨entry, wanted, rfl⟩) | rfl
      · exact Instr.fits_retire retired
      · exact named entry.1 entry.2 (HashMap.mem_entries_iff.mp wanted)
      · trivial
    · refine flagged_append (flagged_append (flagged_append ?_ ?_) ?_) flagged.2
      · exact flagged_retire _ _
      · apply flagged_of_forall
        rintro later member
        obtain ⟨entry, -, rfl⟩ := List.mem_map.mp member
        rfl
      · simp [Flagged, Instr.changes]

private theorem effect_ensure (sound : s.Sound) {key : Text} {m : RouteMetricsConfig}
    (fits : (Instr.ensure key m).Fits s)
    (ran : (Instr.ensure key m).exec tmpOf s choice = some (s', first)) :
    Effect tmpOf s (.ensure key m) s' first := by
  simp only [Instr.exec] at ran
  split at ran
  next arc stored =>
    cases ran
    obtain ⟨cell, at_arc, rfl⟩ := sound.named key arc stored
    exact .reads rfl rfl (Instr.fits_configure at_arc fits) (flagged_configure _ _)
  next absent =>
    cases ran
    refine .create absent fun succeeded => ?_
    -- a counter is created with what its file holds, unless the read fails
    obtain ⟨before, read⟩ := Bool.or_eq_false_iff.mp succeeded
    refine ⟨before, fun some => ?_⟩
    obtain ⟨path, file⟩ := Option.isSome_iff_exists.mp some
    have ok : choice.ok = true := by simpa [file] using read
    rw [ok, if_pos rfl, file, Option.bind_some, fits path file]

private theorem effect_updateResetAt {arc : Nat} {interval : Int64}
    (ran : (Instr.updateResetAt arc interval).exec tmpOf s choice = some (s', first)) :
    Effect tmpOf s (.updateResetAt arc interval) s' first := by
  simp only [Instr.exec, Option.bind_eq_bind, Option.bind_eq_some_iff] at ran
  obtain ⟨cell, -, ran⟩ := ran
  split at ran
  · cases ran
    exact .reads rfl rfl (by simp) trivial
  · cases ran
    exact .reads rfl rfl (by simp [Instr.Fits]) (by simp [Flagged, Instr.changes])

/-- What each instruction does. -/
theorem effect_of_exec (sound : s.Sound) (fits : instr.Fits s)
    (ran : instr.exec tmpOf s choice = some (s', first)) : Effect tmpOf s instr s' first := by
  cases instr with
  | add arc direction n => exact effect_add ran
  | fetchAdd arc direction n => exact effect_fetchAdd ran
  | storeDirty arc => exact effect_storeDirty ran
  | storeBytes arc direction => exact effect_storeBytes ran
  | storeResetAt arc resetAt => exact effect_storeResetAt ran
  | storeSetting arc setting => exact effect_storeSetting ran
  | zeroResetAt arc => exact effect_zeroResetAt ran
  | flushCounter arc force => exact effect_flushCounter sound ran
  | swapDirty arc force path => exact effect_swapDirty ran
  | load arc path ticket usage => exact effect_load ran
  | writeTmp arc path ticket usage => exact effect_writeTmp ran
  | rename arc path ticket => exact effect_rename ran
  | applyScheduledResets =>
    cases ran
    exact .reads rfl rfl (by simp [Instr.Fits]) (by simp [Flagged, Instr.changes])
  | collectResets now => exact effect_collectResets ran
  | loadInterval arc now => exact effect_loadInterval ran
  | loadResetAt arc now interval => exact effect_loadResetAt ran
  | flushAll => exact effect_flushAll ran
  | reset route => exact effect_reset ran
  | resetAll => exact effect_resetAll ran
  | applyConfig routes => exact effect_applyConfig ran
  | drop key =>
    cases ran
    exact .drop
  | ensure key m => exact effect_ensure sound fits ran
  | setFile arc file =>
    cases ran
    exact .setFile
  | updateResetAt arc interval => exact effect_updateResetAt ran
  | unlock =>
    cases ran
    exact .quiet false rfl rfl (by simp) fun _ flagged => flagged.2

end Effects

/-! ### What the tasks keep -/

/-- Nothing that is known of a counter is lost. -/
def Shared.Extends (s s' : Shared) : Prop :=
  ∀ (arc : Nat) (cell : Cell), s.cells[arc]? = some cell → ∃ cell', s'.cells[arc]? = some cell' ∧
    cell'.key = cell.key ∧ (cell.tracked → cell'.tracked) ∧ cell.issued ≤ cell'.issued

section Extends

variable {s s' : Shared}

theorem Shared.Issued.extend {arc : Nat} {path : Text} {ticket : Nat}
    (issued : s.Issued arc path ticket) (extends' : s.Extends s') : s'.Issued arc path ticket := by
  obtain ⟨cell, at_arc, tracked, rfl, early⟩ := issued
  obtain ⟨cell', at_arc', key, still, later⟩ := extends' arc cell at_arc
  exact ⟨cell', at_arc', still tracked, key, early.trans later⟩

theorem Instr.Fits.extend {instr : Instr} (fits : instr.Fits s) (extends' : s.Extends s') :
    instr.Fits s' := by
  cases instr with
  | swapDirty arc force path => exact Shared.Issued.extend fits extends'
  | load arc path ticket usage => exact Shared.Issued.extend fits extends'
  | writeTmp arc path ticket usage => exact Shared.Issued.extend fits extends'
  | rename arc path ticket => exact Shared.Issued.extend fits extends'
  | setFile arc file =>
    cases file with
    | none => trivial
    | some path =>
      obtain ⟨cell, at_arc, rfl⟩ := fits
      obtain ⟨cell', at_arc', key, -⟩ := extends' arc cell at_arc
      exact ⟨cell', at_arc', key⟩
  | ensure key m => exact fits
  | _ => trivial

theorem Shared.getElem?_modify (s : Shared) (arc other : Nat) (f : Cell → Cell) :
    (s.modify arc f).cells[other]? =
      s.cells[other]?.map fun cell => if arc = other then f cell else cell := by
  rw [Shared.modify, List.getElem?_modify]
  by_cases same : arc = other <;> cases s.cells[other]? <;> simp [same]

/-- A change to one counter that keeps what is known of it. -/
theorem Shared.modify_keeps (sound : s.Sound) (arc : Nat) {f : Cell → Cell}
    (here : ∀ cell, s.cells[arc]? = some cell → (f cell).key = cell.key ∧
      (cell.tracked → (f cell).tracked) ∧ cell.issued ≤ (f cell).issued ∧
      (cell.Sound → (f cell).Sound)) :
    s.Extends (s.modify arc f) ∧ (s.modify arc f).Sound := by
  have cases' (other : Nat) (cell : Cell) (at_other : s.cells[other]? = some cell) :
      ∃ cell', (s.modify arc f).cells[other]? = some cell' ∧ cell'.key = cell.key ∧
        (cell.tracked → cell'.tracked) ∧ cell.issued ≤ cell'.issued ∧ cell'.Sound := by
    rw [getElem?_modify, at_other]
    have before := sound.cells other cell at_other
    by_cases same : arc = other
    · subst same
      obtain ⟨key, tracked, issued, kept⟩ := here cell at_other
      exact ⟨f cell, by simp, key, tracked, issued, kept before⟩
    · exact ⟨cell, by simp [same], rfl, id, Nat.le_refl _, before⟩
  refine ⟨fun other cell at_other => ?_, fun other cell' at_other' => ?_,
    fun key other stored => ?_⟩
  · obtain ⟨cell', at_other', key, tracked, issued, -⟩ := cases' other cell at_other
    exact ⟨cell', at_other', key, tracked, issued⟩
  · have mapped := at_other'
    rw [getElem?_modify] at mapped
    obtain ⟨cell, at_other, -⟩ := Option.map_eq_some_iff.mp mapped
    obtain ⟨cell'', at_other'', -, -, -, kept⟩ := cases' other cell at_other
    rw [at_other', Option.some.injEq] at at_other''
    exact at_other'' ▸ kept
  · obtain ⟨cell, at_other, name⟩ := sound.named key other stored
    obtain ⟨cell', at_other', same, -⟩ := cases' other cell at_other
    exact ⟨cell', at_other', same.trans name⟩

theorem Cell.Mild.sound {f : Cell → Cell} (mild : Cell.Mild f) {cell : Cell}
    (sound : cell.Sound) : (f cell).Sound := by
  constructor
  · rw [mild.file, mild.key, mild.tracked]
    exact sound.file
  · rw [mild.tracked, mild.touched, mild.issued]
    exact sound.unflushed

private theorem Cell.created_spec (key : Text) (m : RouteMetricsConfig)
    (content : Option UsageFile) :
    (Cell.created key m content).key = key ∧ (Cell.created key m content).file = none ∧
      (Cell.created key m content).dirty = false ∧
      totals (Cell.created key m content).toRouteTrafficCounter = loadedTotals (some content) := by
  unfold Cell.created loadedTotals
  cases content <;> exact ⟨rfl, rfl, rfl, rfl⟩

theorem Shared.Extends.refl (s : Shared) : s.Extends s :=
  fun _ cell at_arc => ⟨cell, at_arc, rfl, id, Nat.le_refl _⟩

/-- Who flushes a counter has seen its file. -/
theorem Shared.touch_keeps (sound : s.Sound) {arc : Nat} {path : Text} {ticket : Nat}
    (issued : s.Issued arc path ticket) :
    s.Extends (s.modify arc fun cell => { cell with touched := ticket }) ∧
      (s.modify arc fun cell => { cell with touched := ticket }).Sound := by
  obtain ⟨owner, at_arc, tracked, -⟩ := issued
  refine modify_keeps sound arc fun cell here => ⟨rfl, id, Nat.le_refl _, fun kept => ?_⟩
  rw [at_arc, Option.some.injEq] at here
  subst here
  exact ⟨kept.file, fun untracked => absurd tracked (Bool.eq_false_iff.mp untracked)⟩

variable {tmpOf : Text → Text} {instr : Instr} {first : List Instr}

theorem Effect.keeps (effect : Effect tmpOf s instr s' first) (sound : s.Sound)
    (fits : instr.Fits s) : s.Extends s' ∧ s'.Sound := by
  cases effect with
  | quiet locked => exact ⟨.refl s, sound.cells, sound.named⟩
  | store _ _ mild _ =>
    refine s.modify_keeps sound _ fun cell _ => ⟨mild.key cell, ?_, ?_, mild.sound⟩
    · rw [mild.tracked]
      exact id
    · rw [mild.issued]
  | @swap arc _ path cell at_arc =>
    obtain ⟨owner, at_owner, tracked, -⟩ := fits
    refine s.modify_keeps sound _ fun cell here => ⟨rfl, id, Nat.le_succ _, fun kept => ?_⟩
    rw [at_owner, Option.some.injEq] at here
    subst here
    exact ⟨kept.file, fun untracked => absurd tracked (Bool.eq_false_iff.mp untracked)⟩
  | loadMore _ _ => exact ⟨.refl s, sound⟩
  | loadAll _ _ => exact ⟨.refl s, sound⟩
  | write =>
    have touched := s.touch_keeps sound fits
    unfold Shared.written
    dsimp only
    split
    · exact ⟨touched.1, touched.2.cells, touched.2.named⟩
    · exact ⟨.refl s, sound.cells, sound.named⟩
  | rename _ =>
    have touched := s.touch_keeps sound fits
    unfold Shared.renamed
    dsimp only
    split
    · exact ⟨.refl s, sound.cells, sound.named⟩
    · exact ⟨touched.1, touched.2.cells, touched.2.named⟩
  | @fail _ arc _ =>
    have keeps := s.modify_keeps sound arc (f := fun cell => { cell with dirty := true })
      fun cell _ => ⟨rfl, id, Nat.le_refl _, fun kept => ⟨kept.file, kept.unflushed⟩⟩
    exact ⟨keeps.1, keeps.2.cells, keeps.2.named⟩
  | @setFile arc file =>
    refine s.modify_keeps sound arc fun cell here => ⟨rfl, fun tracked => by simp [tracked],
      Nat.le_refl _, fun kept => ⟨fun path given => ?_, fun untracked => ?_⟩⟩
    · have given : file = some path := given
      subst given
      obtain ⟨owner, at_arc, name⟩ := fits
      rw [at_arc, Option.some.injEq] at here
      subst here
      exact ⟨name.symm, by simp⟩
    · exact kept.unflushed (Bool.or_eq_false_iff.mp untracked).1
  | @drop key =>
    refine ⟨.refl s, sound.cells, fun other arc stored => ?_⟩
    rw [HashMap.lookup_erase_eq] at stored
    split at stored
    · cases stored
    · exact sound.named other arc stored
  -- the new counter comes behind the others, so their indices stay
  | @create key m content failed absent _ =>
    have old {arc : Nat} {cell : Cell} (at_arc : s.cells[arc]? = some cell) (new : Cell) :
        (s.cells ++ [new])[arc]? = some cell := by
      rw [List.getElem?_append_left (List.getElem?_eq_some_iff.mp at_arc).1, at_arc]
    refine ⟨fun arc cell at_arc => ⟨cell, old at_arc _, rfl, id, Nat.le_refl _⟩, ?_, ?_⟩
    · intro arc cell at_arc
      rcases Nat.lt_or_ge arc s.cells.length with before | beyond
      · rw [List.getElem?_append_left before] at at_arc
        exact sound.cells arc cell at_arc
      · rw [List.getElem?_append_right beyond] at at_arc
        have new := List.mem_singleton.mp (List.mem_of_getElem? at_arc)
        subst new
        refine ⟨fun path given => ?_, fun _ => rfl⟩
        rw [(Cell.created_spec key m content).2.1] at given
        cases given
    · intro other arc stored
      rw [HashMap.lookup_insert_eq] at stored
      split at stored
      next same =>
        cases stored
        refine ⟨_, List.getElem?_concat_length .., ?_⟩
        rw [same]
        exact (Cell.created_spec key m content).1
      next =>
        obtain ⟨cell, at_arc, name⟩ := sound.named other arc stored
        exact ⟨cell, old at_arc _, name⟩

theorem Effect.fits (effect : Effect tmpOf s instr s' first) (sound : s.Sound)
    (fits : instr.Fits s) : ∀ later ∈ first, later.Fits s' := by
  have extends' := (effect.keeps sound fits).1
  cases effect with
  | quiet locked _ _ each _ => exact fun later member => (each later member).extend extends'
  | @swap _ _ _ cell at_arc =>
    intro later member
    obtain ⟨owner, at_owner, tracked, name, -⟩ := fits
    rw [List.mem_singleton.mp member]
    rw [at_arc, Option.some.injEq] at at_owner
    subst at_owner
    refine ⟨{ cell with dirty := false, issued := cell.issued + 1 }, ?_, tracked, name,
      Nat.le_refl _⟩
    rw [Shared.getElem?_modify, at_arc]
    simp
  | loadMore _ _ =>
    intro later member
    rw [List.mem_singleton.mp member]
    exact fits
  | loadAll _ _ =>
    intro later member
    rw [List.mem_singleton.mp member]
    exact fits
  | write =>
    intro later member
    rw [List.mem_singleton.mp member]
    exact Shared.Issued.extend fits extends'
  | @create key m content _ _ _ =>
    refine Instr.fits_configure (List.getElem?_concat_length ..) fun path file => ?_
    rw [(Cell.created_spec key m content).1]
    exact fits path file
  | _ => exact fun later member => by cases member

theorem Effect.flagged (effect : Effect tmpOf s instr s' first) {rest : Task}
    (flagged : Flagged (instr :: rest)) : Flagged (first ++ rest) := by
  cases effect with
  | quiet locked _ _ _ kept => exact kept rest flagged
  | swap _ => exact flagged_append (by simp [Flagged, Instr.changes]) flagged.2
  | loadMore _ _ => exact flagged_append (by simp [Flagged, Instr.changes]) flagged.2
  | loadAll _ _ => exact flagged_append (by simp [Flagged, Instr.changes]) flagged.2
  | write => exact flagged_append (by simp [Flagged, Instr.changes]) flagged.2
  | create _ _ => exact flagged_append (flagged_configure _ _) flagged.2
  | _ => exact flagged.2

end Extends

/-! ### The values on their way -/

/-- Some task has changed the counter, or may yet, and has not marked it. -/
def Unflagged (tasks : Multiset Task) (arc : Nat) : Prop :=
  ∃ task ∈ tasks, Instr.storeDirty arc ∈ task

/-- What a flush has read so far are the values of the counter. -/
structure ReadSoFar (usage : UsageFile) (counter : RouteTrafficCounter) : Prop where
  upload : ∀ n ∈ usage.uploadBytes, n = counter.uploadBytes
  download : ∀ n ∈ usage.downloadBytes, n = counter.downloadBytes
  resetAt : ∀ n ∈ usage.resetAt, n = counter.resetAt

section Values

variable (tmpOf : Text → Text)

/-- The last flush of the counter is under way, with the values of the counter. -/
def Carries (s : Shared) (key : Text) (arc : Nat) (cell : Cell) : Task → Prop
  | .load arc' path ticket usage :: _ =>
    arc' = arc ∧ path = key ∧ ticket = cell.issued ∧ ReadSoFar usage cell.toRouteTrafficCounter
  | .writeTmp arc' path ticket usage :: _ => arc' = arc ∧ path = key ∧ ticket = cell.issued ∧
      loadedTotals (some (some usage)) = totals cell.toRouteTrafficCounter
  | .rename arc' path ticket :: _ => arc' = arc ∧ path = key ∧ ticket = cell.issued ∧
      tmpOf key ≠ key ∧
      loadedTotals (s.files.lookup (tmpOf key)) = totals cell.toRouteTrafficCounter
  | _ => False

/-- The values of the counter are on their way to its file, or there. -/
def Current (s : Shared) (tasks : Multiset Task) (key : Text) (arc : Nat) (cell : Cell) : Prop :=
  (∃ task ∈ tasks, Carries tmpOf s key arc cell task) ∨
    cell.touched = cell.issued ∧
      loadedTotals (s.files.lookup key) = totals cell.toRouteTrafficCounter

/-- So it is with every counter of the store that has a file, is not dirty and will not be. -/
def AllCurrent (s : Shared) (tasks : Multiset Task) : Prop :=
  s.failed = false → ∀ key arc cell, s.counters.lookup key = some arc →
    s.cells[arc]? = some cell → cell.tracked → cell.dirty = false → ¬ Unflagged tasks arc →
    Current tmpOf s tasks key arc cell

variable {tmpOf : Text → Text} {s s' : Shared} {key : Text} {arc : Nat} {cell cell' : Cell}
  {task task' : Task} {others : Multiset Task}

private theorem unflagged_cons :
    Unflagged (task ::ₘ others) arc ↔ Instr.storeDirty arc ∈ task ∨ Unflagged others arc := by
  simp [Unflagged]

theorem ReadSoFar.congr {usage : UsageFile} {counter counter' : RouteTrafficCounter}
    (read : ReadSoFar usage counter) (same : totals counter' = totals counter) :
    ReadSoFar usage counter' := by
  obtain ⟨upload, download, resetAt⟩ : counter'.uploadBytes = counter.uploadBytes ∧
      counter'.downloadBytes = counter.downloadBytes ∧ counter'.resetAt = counter.resetAt := by
    simpa [totals] using same
  exact ⟨upload ▸ read.upload, download ▸ read.download, resetAt ▸ read.resetAt⟩

/-- The next field keeps it so. -/
theorem ReadSoFar.next {usage more : UsageFile} {counter : RouteTrafficCounter} {now : Int64}
    (read : ReadSoFar usage counter) (next : loadNext usage counter now = some more) :
    ReadSoFar more counter := by
  obtain ⟨upload, download, resetAt⟩ := read
  unfold loadNext at next
  split at next
  · cases next
    exact ⟨by simp, download, resetAt⟩
  · split at next
    · cases next
      exact ⟨upload, by simp, resetAt⟩
    · split at next
      · cases next
        exact ⟨upload, download, resetAt⟩
      · split at next
        · cases next
          exact ⟨upload, download, resetAt⟩
        · split at next
          · cases next
            exact ⟨upload, download, by simp⟩
          · split at next
            · cases next
              exact ⟨upload, download, resetAt⟩
            · cases next

/-- Once all fields are read they are the values of the counter. -/
theorem ReadSoFar.all {usage : UsageFile} {counter : RouteTrafficCounter} {now : Int64}
    (read : ReadSoFar usage counter) (all : loadNext usage counter now = none) :
    loadedTotals (some (some usage)) = totals counter := by
  obtain ⟨uploadBytes, downloadBytes, uploadLimit, downloadLimit, resetAt, updatedAt⟩ := usage
  cases uploadBytes with
  | none => cases all
  | some upload =>
    cases downloadBytes with
    | none => cases all
    | some download =>
      cases resetAt with
      | none => cases uploadLimit <;> cases downloadLimit <;> cases all
      | some at' =>
        have upload := read.upload upload rfl
        have download := read.download download rfl
        have resetAt := read.resetAt at' rfl
        subst upload download resetAt
        rfl

theorem Carries.congr (carries : Carries tmpOf s key arc cell task)
    (same : totals cell'.toRouteTrafficCounter = totals cell.toRouteTrafficCounter)
    (issued : cell'.issued = cell.issued)
    (tmp : awaits tmpOf (tmpOf key) task →
      s'.files.lookup (tmpOf key) = s.files.lookup (tmpOf key)) :
    Carries tmpOf s' key arc cell' task := by
  cases task with
  | nil => exact carries.elim
  | cons instr rest =>
    cases instr with
    | load arc' path' ticket' usage =>
      obtain ⟨here, path, ticket, read⟩ := carries
      exact ⟨here, path, ticket.trans issued.symm, read.congr same⟩
    | writeTmp arc' path' ticket' usage =>
      obtain ⟨here, path, ticket, values⟩ := carries
      exact ⟨here, path, ticket.trans issued.symm, values.trans same.symm⟩
    | rename arc' path' ticket' =>
      obtain ⟨here, path, ticket, apart, values⟩ := carries
      subst path
      rw [← tmp (by simp [awaits, Ne.symm apart])] at values
      exact ⟨here, rfl, ticket.trans issued.symm, apart, values.trans same.symm⟩
    | _ => exact carries.elim

/-- A step that leaves the counter and its file alone. -/
theorem Current.frame (current : Current tmpOf s (task ::ₘ others) key arc cell)
    (mover : Carries tmpOf s key arc cell task → Carries tmpOf s' key arc cell' task')
    (same : totals cell'.toRouteTrafficCounter = totals cell.toRouteTrafficCounter)
    (issued : cell'.issued = cell.issued) (touched : cell'.touched = cell.touched)
    (file : s'.files.lookup key = s.files.lookup key)
    (tmp : ∀ other ∈ others, awaits tmpOf (tmpOf key) other →
      s'.files.lookup (tmpOf key) = s.files.lookup (tmpOf key)) :
    Current tmpOf s' (task' ::ₘ others) key arc cell' := by
  rcases current with ⟨carrier, member, carries⟩ | ⟨last, values⟩
  · refine .inl ?_
    rcases Multiset.mem_cons.mp member with rfl | old
    · exact ⟨task', Multiset.mem_cons_self .., mover carries⟩
    · exact ⟨carrier, Multiset.mem_cons_of_mem old, carries.congr same issued (tmp carrier old)⟩
  · refine .inr ⟨?_, ?_⟩
    · rw [touched, issued, last]
    · rw [file, same, values]

private theorem not_carries {instr : Instr} {rest : Task} (settled : instr.inFlight = false) :
    ¬ Carries tmpOf s key arc cell (instr :: rest) := by
  cases instr <;> first | exact id | cases settled

/-- The counter after the step is as one was before it, which is not marked by the step. -/
structure AsBefore (s : Shared) (instr : Instr) (key : Text) (arc : Nat) (cell cell' : Cell) :
    Prop where
  stored : s.counters.lookup key = some arc
  here : s.cells[arc]? = some cell
  tracked : cell.tracked
  clean : cell.dirty = false
  unmarked : instr.marks ≠ some arc
  totals : totals cell'.toRouteTrafficCounter = totals cell.toRouteTrafficCounter
  issued : cell'.issued = cell.issued
  touched : cell'.touched = cell.touched

variable {instr : Instr} {first rest : Task}

private theorem unflagged_before (after : ¬ Unflagged ((first ++ rest) ::ₘ others) arc)
    (unmarked : instr.marks ≠ some arc) : ¬ Unflagged ((instr :: rest) ::ₘ others) arc := by
  intro before
  apply after
  rw [unflagged_cons] at before ⊢
  refine before.imp_left fun member => ?_
  -- the instruction itself was no mark, so the mark is in what is left of the task
  rcases List.mem_cons.mp member with rfl | later
  · exact absurd rfl unmarked
  · exact List.mem_append_right first later

/-- A step that is not one of a flush under way. -/
theorem AllCurrent.settled (current : AllCurrent tmpOf s ((instr :: rest) ::ₘ others))
    (settled : instr.inFlight = false) (files : s'.files = s.files)
    (failed : s'.failed = false → s.failed = false)
    (each : ∀ key arc cell', s'.counters.lookup key = some arc → s'.cells[arc]? = some cell' →
      cell'.tracked → cell'.dirty = false → s'.failed = false →
      ¬ Unflagged ((first ++ rest) ::ₘ others) arc →
      Current tmpOf s' ((first ++ rest) ::ₘ others) key arc cell' ∨
        ∃ cell, AsBefore s instr key arc cell cell') :
    AllCurrent tmpOf s' ((first ++ rest) ::ₘ others) := by
  intro succeeded key arc cell' stored here tracked clean marked
  rcases each key arc cell' stored here tracked clean succeeded marked with now | ⟨cell, before⟩
  · exact now
  · refine (current (failed succeeded) key arc cell before.stored before.here before.tracked
      before.clean (unflagged_before marked before.unmarked)).frame ?_ before.totals before.issued
      before.touched (by rw [files]) fun _ _ _ => by rw [files]
    exact fun carries => absurd carries (not_carries settled)

theorem AllCurrent.quiet (current : AllCurrent tmpOf s ((instr :: rest) ::ₘ others))
    (settled : instr.inFlight = false) (unmarked : instr.marks = none) (locked : Bool) :
    AllCurrent tmpOf { s with locked } ((first ++ rest) ::ₘ others) := by
  refine current.settled settled rfl id fun key arc cell stored here tracked clean _ _ => ?_
  exact .inr ⟨cell, stored, here, tracked, clean, by simp [unmarked], rfl, rfl, rfl⟩

theorem AllCurrent.store (current : AllCurrent tmpOf s ((instr :: rest) ::ₘ others))
    (flagged : Flagged (instr :: rest)) (settled : instr.inFlight = false) {arc : Nat}
    {f : Cell → Cell} (marks : ∀ other, instr.marks = some other → other = arc)
    (mild : Cell.Mild f) (unseen : ∀ cell, s.cells[arc]? = some cell → (f cell).dirty ∨
      instr.changes = some arc ∨ instr.marks = none ∧ (f cell).dirty = cell.dirty ∧
        MetricsTasks.totals (f cell).toRouteTrafficCounter =
          MetricsTasks.totals cell.toRouteTrafficCounter) :
    AllCurrent tmpOf (s.modify arc f) (([] ++ rest) ::ₘ others) := by
  refine current.settled settled rfl id fun key other cell' stored here tracked clean _ marked => ?_
  refine .inr ?_
  rw [Shared.getElem?_modify] at here
  obtain ⟨cell, at_other, rfl⟩ := Option.map_eq_some_iff.mp here
  by_cases same : arc = other
  · subst same
    rw [if_pos rfl, mild.tracked] at tracked
    rw [if_pos rfl] at clean
    rw [if_pos rfl]
    -- a changed counter is dirty now, or its task will mark it, or the values are the old ones
    rcases unseen cell at_other with dirty | changes | ⟨unmarked, dirty, values⟩
    · rw [clean] at dirty
      cases dirty
    · have later := flagged.1 arc changes
      exact absurd (unflagged_cons.mpr (.inl later)) marked
    · exact ⟨cell, stored, at_other, tracked, dirty.symm.trans clean, by simp [unmarked], values,
        mild.issued cell, mild.touched cell⟩
  · rw [if_neg same] at tracked clean ⊢
    exact ⟨cell, stored, at_other, tracked, clean, fun mark => same (marks other mark).symm, rfl,
      rfl, rfl⟩

/-- The counters that a change of one counter leaves as they were. -/
theorem asBefore_of_ne {f : Cell → Cell} {other : Nat} (apart : arc ≠ other)
    (unmarked : instr.marks = none) (stored : s.counters.lookup key = some other)
    (here : (s.modify arc f).cells[other]? = some cell') (tracked : cell'.tracked)
    (clean : cell'.dirty = false) : ∃ cell, AsBefore s instr key other cell cell' := by
  rw [Shared.getElem?_modify] at here
  obtain ⟨cell, at_other, rfl⟩ := Option.map_eq_some_iff.mp here
  rw [if_neg apart] at tracked clean ⊢
  exact ⟨cell, stored, at_other, tracked, clean, by simp [unmarked], rfl, rfl, rfl⟩

/-- `dirty` is cleared, and the flush that has done so will read the values. -/
theorem AllCurrent.swap {force : Bool} {path : Text} (sound : s.Sound)
    (current : AllCurrent tmpOf s ((.swapDirty arc force path :: rest) ::ₘ others))
    (issued : s.Issued arc path 0) (here : s.cells[arc]? = some cell) :
    AllCurrent tmpOf
      (s.modify arc fun cell => { cell with dirty := false, issued := cell.issued + 1 })
      (([.load arc path (cell.issued + 1) ⟨none, none, none, none, none, none⟩] ++ rest) ::ₘ
        others) := by
  refine current.settled rfl rfl id fun key other cell' stored at_other tracked clean _ _ => ?_
  -- this flush has read nothing yet, so whatever it will read are the values
  by_cases same : arc = other
  · subst same
    obtain ⟨owner, at_owner, -, name, -⟩ := issued
    obtain ⟨named, at_named, key'⟩ := sound.named key arc stored
    rw [here, Option.some.injEq] at at_owner at_named
    subst at_owner at_named
    rw [Shared.getElem?_modify, here, Option.map_some, if_pos rfl, Option.some.injEq] at at_other
    subst at_other
    refine .inl (.inl ⟨_, Multiset.mem_cons_self .., rfl, name.symm.trans key', rfl, ?_⟩)
    exact ⟨by simp, by simp, by simp⟩
  · exact .inr (asBefore_of_ne same rfl stored at_other tracked clean)

theorem AllCurrent.setFile {file : Option Text} (sound : s.Sound)
    (current : AllCurrent tmpOf s ((.setFile arc file :: rest) ::ₘ others))
    (fits : (Instr.setFile arc file).Fits s)
    (order : ∀ path ∈ file, ∀ cell ∈ s.cells[arc]?, cell.tracked ∨ cell.dirty ∨
      loadedTotals (s.files.lookup path) = totals cell.toRouteTrafficCounter) :
    AllCurrent tmpOf
      (s.modify arc fun cell => { cell with file, tracked := cell.tracked || file.isSome })
      (([] ++ rest) ::ₘ others) := by
  refine current.settled rfl rfl id fun key other cell' stored at_other tracked clean _ _ => ?_
  by_cases same : arc = other
  · subst same
    rw [Shared.getElem?_modify] at at_other
    obtain ⟨cell, here, rfl⟩ := Option.map_eq_some_iff.mp at_other
    rw [if_pos rfl] at tracked clean ⊢
    -- a counter that gets its first file has never been flushed
    cases before : cell.tracked with
    | true => exact .inr ⟨cell, stored, here, before, clean, by simp [Instr.marks], rfl, rfl, rfl⟩
    | false =>
      have given : file.isSome := by simpa [before] using tracked
      obtain ⟨path, rfl⟩ := Option.isSome_iff_exists.mp given
      obtain ⟨owner, at_owner, name⟩ := fits
      obtain ⟨named, at_named, key'⟩ := sound.named key arc stored
      rw [here, Option.some.injEq] at at_owner at_named
      subst at_owner at_named
      rcases order path rfl cell here with already | dirty | values
      · rw [before] at already
        cases already
      · exact absurd dirty (Bool.eq_false_iff.mp clean)
      · rw [← name, key'] at values
        exact .inl (.inr ⟨(sound.cells arc cell here).unflushed before, values⟩)
  · exact .inr (asBefore_of_ne same rfl stored at_other tracked clean)

theorem AllCurrent.create {m : RouteMetricsConfig} {content : Option UsageFile} {failed : Bool}
    (sound : s.Sound) (current : AllCurrent tmpOf s ((.ensure key m :: rest) ::ₘ others))
    (read : failed = false → s.failed = false ∧
      (m.file.isSome → content = (s.files.lookup key).getD none)) :
    AllCurrent tmpOf
      { s with
        cells := s.cells ++ [.created key m content]
        counters := s.counters.insert key s.cells.length
        failed }
      ((Instr.configure s.cells.length m ++ rest) ::ₘ others) := by
  refine current.settled rfl rfl (fun succeeded => (read succeeded).1) ?_
  intro name arc cell' stored here tracked clean succeeded _
  dsimp only at stored here succeeded
  rw [HashMap.lookup_insert_eq] at stored
  split at stored
  next same =>
    cases stored
    subst same
    rw [List.getElem?_concat_length, Option.some.injEq] at here
    subst here
    -- its values were just loaded from the file
    refine .inl (.inr ⟨rfl, ?_⟩)
    rw [(Cell.created_spec name m content).2.2.2, (read succeeded).2 tracked]
    rfl
  next =>
    obtain ⟨cell, at_arc, -⟩ := sound.named name arc stored
    have old := (List.getElem?_eq_some_iff.mp at_arc).1
    rw [List.getElem?_append_left old] at here
    exact .inr ⟨cell', stored, here, tracked, clean, by simp [Instr.marks], rfl, rfl, rfl⟩

theorem AllCurrent.drop (current : AllCurrent tmpOf s ((.drop key :: rest) ::ₘ others)) :
    AllCurrent tmpOf { s with counters := s.counters.erase key } (([] ++ rest) ::ₘ others) := by
  refine current.settled rfl rfl id fun name arc cell stored here tracked clean _ _ => ?_
  dsimp only at stored
  rw [HashMap.lookup_erase_eq] at stored
  split at stored
  · cases stored
  · exact .inr ⟨cell, stored, here, tracked, clean, by simp [Instr.marks], rfl, rfl, rfl⟩

/-- A flush goes on without changing anything. -/
theorem AllCurrent.goOn {next : Instr} (current : AllCurrent tmpOf s ((instr :: rest) ::ₘ others))
    (unmarked : instr.marks = none)
    (carries : ∀ key arc cell, s.cells[arc]? = some cell →
      Carries tmpOf s key arc cell (instr :: rest) → Carries tmpOf s key arc cell (next :: rest)) :
    AllCurrent tmpOf s (([next] ++ rest) ::ₘ others) := by
  intro succeeded key arc cell stored here tracked clean marked
  have before := current succeeded key arc cell stored here tracked clean
    (unflagged_before marked (by simp [unmarked]))
  exact before.frame (carries key arc cell here) rfl rfl rfl rfl fun _ _ _ => rfl

theorem AllCurrent.load {path : Text} {ticket : Nat} {usage : UsageFile} {now : Int64}
    (current : AllCurrent tmpOf s ((.load arc path ticket usage :: rest) ::ₘ others))
    (here : s.cells[arc]? = some cell) :
    (∀ more, loadNext usage cell.toRouteTrafficCounter now = some more →
      AllCurrent tmpOf s (([.load arc path ticket more] ++ rest) ::ₘ others)) ∧
    (loadNext usage cell.toRouteTrafficCounter now = none →
      AllCurrent tmpOf s (([.writeTmp arc path ticket usage] ++ rest) ::ₘ others)) := by
  refine ⟨fun more next => current.goOn rfl ?_, fun all => current.goOn rfl ?_⟩
  · rintro key other cell' at_other ⟨rfl, same, last, read⟩
    rw [here, Option.some.injEq] at at_other
    subst at_other
    exact ⟨rfl, same, last, read.next next⟩
  · rintro key other cell' at_other ⟨rfl, same, last, read⟩
    rw [here, Option.some.injEq] at at_other
    subst at_other
    exact ⟨rfl, same, last, read.all all⟩

/-- The file that a flush may change is not what another is about to rename. -/
theorem Free.unawaited {path file : Text} {ticket : Nat}
    (free : Free tmpOf s task (task ::ₘ others) arc path ticket file) :
    ∀ other ∈ others, awaits tmpOf file other = false := by
  have count := free.1
  rw [Multiset.countP_cons] at count
  have none : others.countP (fun other => awaits tmpOf file other) = 0 := by
    by_cases mine : awaits tmpOf file task <;> simp only [mine] at count <;> simpa using count
  intro other member
  exact Bool.eq_false_iff.mpr (Multiset.countP_eq_zero.mp none other member)

/-- And if it is the file of a counter that is current, then the flush is one of the counter, and
none has reached the file that was later. -/
theorem Free.owner {path file : Text} {ticket : Nat} {tasks : Multiset Task}
    (free : Free tmpOf s task tasks arc path ticket file) {owner : Nat}
    (stored : s.counters.lookup file = some owner) (here : s.cells[owner]? = some cell)
    (tracked : cell.tracked) : owner = arc ∧ file = path ∧ cell.touched < ticket :=
  free.2 owner stored cell here tracked

/-- A flush reaches the file of its counter: it is the last one, or the last one is on its way. -/
theorem Current.reach {ticket : Nat} (before : Current tmpOf s (task ::ₘ others) key arc cell)
    (untouched : cell.touched < ticket) (early : ticket ≤ cell.issued)
    (mover : Carries tmpOf s key arc cell task → ticket = cell.issued ∧
      loadedTotals (s'.files.lookup key) = totals cell.toRouteTrafficCounter)
    (unawaited : ∀ other ∈ others, awaits tmpOf (tmpOf key) other = false) :
    Current tmpOf s' (task' ::ₘ others) key arc { cell with touched := ticket } := by
  rcases before with ⟨carrier, member, carries⟩ | ⟨last, -⟩
  · rcases Multiset.mem_cons.mp member with rfl | old
    · exact .inr (mover carries)
    · refine .inl ⟨carrier, Multiset.mem_cons_of_mem old, carries.congr rfl rfl fun awaiting => ?_⟩
      rw [unawaited carrier old] at awaiting
      cases awaiting
  · -- a flush that is under way was issued after all that have reached the file
    omega

theorem AllCurrent.write {path : Text} {ticket : Nat} {usage : UsageFile} (sound : s.Sound)
    (current : AllCurrent tmpOf s ((.writeTmp arc path ticket usage :: rest) ::ₘ others))
    (issued : s.Issued arc path ticket)
    (free : Free tmpOf s (.writeTmp arc path ticket usage :: rest)
      ((.writeTmp arc path ticket usage :: rest) ::ₘ others) arc path ticket (tmpOf path)) :
    AllCurrent tmpOf (s.written tmpOf arc path ticket usage)
      (([.rename arc path ticket] ++ rest) ::ₘ others) := by
  have failed : (s.written tmpOf arc path ticket usage).failed = s.failed := by
    unfold Shared.written
    split <;> rfl
  have counters : (s.written tmpOf arc path ticket usage).counters = s.counters := by
    unfold Shared.written
    split <;> rfl
  have files (name : Text) : (s.written tmpOf arc path ticket usage).files.lookup name =
      if name = tmpOf path then some (some usage) else s.files.lookup name := by
    rw [← HashMap.lookup_insert_eq]
    unfold Shared.written
    split <;> rfl
  have cells (other : Nat) : (s.written tmpOf arc path ticket usage).cells[other]? =
      s.cells[other]?.map fun cell => if tmpOf path = path ∧ arc = other then
        { cell with touched := ticket } else cell := by
    unfold Shared.written
    split
    next self =>
      rw [Shared.getElem?_modify]
      simp [self]
    next apart => simp [apart]
  intro succeeded key owner cell' stored here tracked clean marked
  rw [failed] at succeeded
  rw [counters] at stored
  rw [cells] at here
  obtain ⟨cell, at_owner, rfl⟩ := Option.map_eq_some_iff.mp here
  have tracked : cell.tracked := by split at tracked <;> exact tracked
  have clean : cell.dirty = false := by split at clean <;> exact clean
  have before := current succeeded key owner cell stored at_owner tracked clean
    (unflagged_before marked (by simp [Instr.marks]))
  obtain ⟨flushed, at_arc, -, name, early⟩ := issued
  obtain ⟨named, at_named, key'⟩ := sound.named key owner stored
  rw [at_owner, Option.some.injEq] at at_named
  subst at_named
  by_cases self : key = tmpOf path
  · -- the temporary file is the file of this counter
    obtain ⟨rfl, same, untouched⟩ := free.owner (self ▸ stored) at_owner tracked
    rw [if_pos ⟨same, rfl⟩]
    rw [at_owner, Option.some.injEq] at at_arc
    subst at_arc
    refine before.reach untouched early ?_ ?_
    · rintro ⟨-, -, last, values⟩
      exact ⟨last, by rw [files, if_pos self, values]⟩
    · rw [self, same]
      exact same ▸ free.unawaited
  · -- the temporary file is not the file of this counter, nor of any flush of it
    have elsewhere : ¬ (tmpOf path = path ∧ arc = owner) := by
      rintro ⟨same, rfl⟩
      rw [at_owner, Option.some.injEq] at at_arc
      subst at_arc
      exact self (key'.symm.trans (name.trans same.symm))
    rw [if_neg elsewhere]
    refine before.frame ?_ rfl rfl rfl (by rw [files, if_neg self]) fun other member awaiting => ?_
    · rintro ⟨rfl, rfl, last, values⟩
      refine ⟨rfl, rfl, last, Ne.symm self, ?_⟩
      rw [files, if_pos rfl, values]
    · rw [files, if_neg]
      intro same
      rw [same, free.unawaited other member] at awaiting
      cases awaiting

private theorem Shared.lookup_renamed {path : Text} {ticket : Nat} {content : Option UsageFile}
    (name : Text) : (s.renamed tmpOf arc path ticket content).files.lookup name =
      if name = path then some content else if name = tmpOf path then none
      else s.files.lookup name := by
  rw [← HashMap.lookup_erase_eq, ← HashMap.lookup_insert_eq]
  unfold Shared.renamed
  split <;> rfl

private theorem Shared.getElem?_renamed {path : Text} {ticket : Nat} {content : Option UsageFile}
    (other : Nat) : (s.renamed tmpOf arc path ticket content).cells[other]? =
      s.cells[other]?.map fun cell => if tmpOf path ≠ path ∧ arc = other then
        { cell with touched := ticket } else cell := by
  unfold Shared.renamed
  split
  next self => simp [self]
  next apart =>
    rw [Shared.getElem?_modify]
    simp [apart]

theorem AllCurrent.rename {path : Text} {ticket : Nat} {content : Option UsageFile}
    (sound : s.Sound)
    (current : AllCurrent tmpOf s ((.rename arc path ticket :: rest) ::ₘ others))
    (issued : s.Issued arc path ticket) (found : s.files.lookup (tmpOf path) = some content)
    (order : InOrder tmpOf s (.rename arc path ticket :: rest)
      ((.rename arc path ticket :: rest) ::ₘ others)) :
    AllCurrent tmpOf (s.renamed tmpOf arc path ticket content) (([] ++ rest) ::ₘ others) := by
  have failed : (s.renamed tmpOf arc path ticket content).failed = s.failed := by
    unfold Shared.renamed
    split <;> rfl
  have counters : (s.renamed tmpOf arc path ticket content).counters = s.counters := by
    unfold Shared.renamed
    split <;> rfl
  intro succeeded key owner cell' stored here tracked' clean' marked
  rw [failed] at succeeded
  rw [counters] at stored
  rw [Shared.getElem?_renamed] at here
  obtain ⟨cell, at_owner, rfl⟩ := Option.map_eq_some_iff.mp here
  have tracked : cell.tracked := by split at tracked' <;> exact tracked'
  have clean : cell.dirty = false := by split at clean' <;> exact clean'
  have before := current succeeded key owner cell stored at_owner tracked clean
    (unflagged_before marked (by simp [Instr.marks]))
  by_cases self : tmpOf path = path
  · -- the file is renamed to itself: the values were written to it before
    have files (name : Text) : (s.renamed tmpOf arc path ticket content).files.lookup name =
        s.files.lookup name := by
      rw [Shared.lookup_renamed]
      split
      next same => rw [same, ← self, found]
      next apart => rw [self, if_neg apart]
    rw [if_neg fun apart => apart.1 self]
    refine before.frame ?_ rfl rfl rfl (files key) fun _ _ _ => files _
    rintro ⟨-, rfl, -, apart, -⟩
    exact absurd self apart
  · obtain ⟨target, source⟩ := order self
    obtain ⟨flushed, at_arc, -, name, early⟩ := issued
    obtain ⟨named, at_named, key'⟩ := sound.named key owner stored
    rw [at_owner, Option.some.injEq] at at_named
    subst at_named
    by_cases same : key = path
    · subst same
      obtain ⟨rfl, -, untouched⟩ := target.owner stored at_owner tracked
      rw [if_pos ⟨self, rfl⟩]
      rw [at_owner, Option.some.injEq] at at_arc
      subst at_arc
      refine before.reach untouched early ?_ source.unawaited
      rintro ⟨-, -, last, -, values⟩
      exact ⟨last, by rw [Shared.lookup_renamed, if_pos rfl, ← found, values]⟩
    · have elsewhere : arc ≠ owner := by
        rintro rfl
        rw [at_owner, Option.some.injEq] at at_arc
        subst at_arc
        exact same (key'.symm.trans name)
      have source_ne : key ≠ tmpOf path := by
        rintro rfl
        exact self (source.owner stored at_owner tracked).2.1
      rw [if_neg fun both => elsewhere both.2]
      refine before.frame ?_ rfl rfl rfl ?_ fun other member awaiting => ?_
      · rintro ⟨rfl, -⟩
        exact absurd rfl elsewhere
      · rw [Shared.lookup_renamed, if_neg same, if_neg source_ne]
      · -- what another task is about to rename is neither of the two files
        rw [Shared.lookup_renamed, if_neg, if_neg]
        · intro taken
          rw [taken, source.unawaited other member] at awaiting
          cases awaiting
        · intro taken
          rw [taken, target.unawaited other member] at awaiting
          cases awaiting

/-- A step in order keeps what is on its way on its way. -/
theorem AllCurrent.step (effect : Effect tmpOf s instr s' first) (sound : s.Sound)
    (fits : instr.Fits s) (flagged : Flagged (instr :: rest))
    (order : InOrder tmpOf s (instr :: rest) ((instr :: rest) ::ₘ others))
    (current : AllCurrent tmpOf s ((instr :: rest) ::ₘ others)) :
    AllCurrent tmpOf s' ((first ++ rest) ::ₘ others) := by
  cases effect with
  | quiet locked settled unmarked _ _ => exact current.quiet settled unmarked locked
  | store settled marks mild unseen => exact current.store flagged settled marks mild unseen
  | swap at_arc => exact current.swap sound fits at_arc
  | loadMore at_arc next => exact (current.load at_arc).1 _ next
  | loadAll at_arc all => exact (current.load at_arc).2 all
  | write => exact current.write sound fits order
  | rename found => exact current.rename sound fits found order
  | fail _ => exact fun succeeded => by cases succeeded
  | @setFile arc file =>
    refine current.setFile sound fits fun path given cell here => ?_
    rw [Option.mem_def.mp given] at order
    exact order cell here
  | drop => exact current.drop
  | create _ read => exact current.create sound read

end Values

/-! ### Runs -/

variable {tmpOf : Text → Text} {s s' : Shared} {task task' : Task} {tasks others : Multiset Task}

/-- What holds of the counters, the files and the tasks in every state of a run in order. -/
structure Protocol (tmpOf : Text → Text) (s : Shared) (tasks : Multiset Task) : Prop where
  sound : s.Sound
  fits : ∀ task ∈ tasks, ∀ instr ∈ task, instr.Fits s
  flagged : ∀ task ∈ tasks, Flagged task
  current : AllCurrent tmpOf s tasks

private theorem protocol_start (tmpOf : Text → Text) (files : HashMap Text (Option UsageFile)) :
    Protocol tmpOf (.start files) 0 where
  sound := ⟨fun _ _ here => (by cases here), fun _ _ stored => (by cases stored)⟩
  fits := fun _ member => by cases member
  flagged := fun _ member => by cases member
  current := fun _ _ _ _ stored => by cases stored

/-- A task that has just started has changed nothing and knows nothing. -/
theorem fits_of_fresh (fresh : task.fresh) :
    (∀ instr ∈ task, instr.Fits s) ∧ Flagged task := by
  unfold Task.fresh at fresh
  split at fresh
  case h_6 => cases fresh
  all_goals simp [Instr.Fits, Flagged, Instr.changes]

theorem Protocol.spawn (protocol : Protocol tmpOf s tasks) (fresh : task.fresh) :
    Protocol tmpOf s (task ::ₘ tasks) := by
  obtain ⟨fits, flagged⟩ := @fits_of_fresh s task fresh
  constructor
  case sound => exact protocol.sound
  case fits =>
    intro other member
    rcases Multiset.mem_cons.mp member with rfl | old
    · exact fits
    · exact protocol.fits other old
  case flagged =>
    intro other member
    rcases Multiset.mem_cons.mp member with rfl | old
    · exact flagged
    · exact protocol.flagged other old
  case current =>
    intro succeeded key arc cell stored here tracked clean marked
    have before := protocol.current succeeded key arc cell stored here tracked clean
      fun unflagged => marked (unflagged_cons.mpr (.inr unflagged))
    refine before.imp_left ?_
    rintro ⟨carrier, member, carries⟩
    exact ⟨carrier, Multiset.mem_cons_of_mem member, carries⟩

theorem Protocol.move {choice : Choice} (protocol : Protocol tmpOf s (task ::ₘ others))
    (order : InOrder tmpOf s task (task ::ₘ others))
    (moved : task.advance tmpOf s choice = some (s', task')) :
    Protocol tmpOf s' (task' ::ₘ others) := by
  cases task with
  | nil => cases moved
  | cons instr rest =>
    simp only [Task.advance, Option.bind_eq_bind, Option.bind_eq_some_iff] at moved
    obtain ⟨⟨after, first⟩, ran, done⟩ := moved
    cases done
    have mine := protocol.fits _ (Multiset.mem_cons_self ..)
    have flagged := protocol.flagged _ (Multiset.mem_cons_self ..)
    have fits := mine instr List.mem_cons_self
    have effect := effect_of_exec protocol.sound fits ran
    obtain ⟨extends', sound⟩ := effect.keeps protocol.sound fits
    -- the other tasks know no more than before, and nothing that is known is lost
    constructor
    case sound => exact sound
    case fits =>
      intro other member later inside
      rcases Multiset.mem_cons.mp member with rfl | old
      · rcases List.mem_append.mp inside with new | left
        · exact effect.fits protocol.sound fits later new
        · exact (mine later (List.mem_cons_of_mem instr left)).extend extends'
      · exact (protocol.fits other (Multiset.mem_cons_of_mem old) later inside).extend extends'
    case flagged =>
      intro other member
      rcases Multiset.mem_cons.mp member with rfl | old
      · exact effect.flagged flagged
      · exact protocol.flagged other (Multiset.mem_cons_of_mem old)
    case current => exact protocol.current.step effect protocol.sound fits flagged order

/-- When nothing is going on, what was on its way has arrived. -/
theorem Protocol.persisted (protocol : Protocol tmpOf s tasks) (done : ∀ task ∈ tasks, task = []) :
    s.Persisted := by
  intro succeeded key arc cell path stored here file clean
  obtain ⟨name, tracked⟩ := (protocol.sound.cells arc cell here).file path file
  obtain ⟨named, at_named, key'⟩ := protocol.sound.named key arc stored
  rw [here, Option.some.injEq] at at_named
  subst at_named
  have marked : ¬ Unflagged tasks arc := by
    rintro ⟨task, member, pending⟩
    rw [done task member] at pending
    cases pending
  rcases protocol.current succeeded key arc cell stored here tracked clean marked with
    ⟨carrier, member, carries⟩ | ⟨-, values⟩
  · rw [done carrier member] at carries
    exact carries.elim
  · rw [name, key']
    exact values

/-- Whatever the tasks do, as long as files are changed in order: when nothing is going on, the
file of each counter that is not dirty gives its values back. -/
theorem persisted_when_quiescent (tmpOf : Text → Text)
    (files : HashMap Text (Option UsageFile)) (events : List (Event Task Choice))
    (inOrder : Guarded (Threads.step Task.fresh (Task.advance tmpOf)) (AmongCond (InOrder tmpOf))
      ⟨.start files, []⟩ events) :
    Always (Threads.step Task.fresh (Task.advance tmpOf))
      (fun pool => Quiescent pool → pool.shared.Persisted) ⟨.start files, []⟩ events := by
  have protocol : Always (Threads.step Task.fresh (Task.advance tmpOf))
      (fun pool => Protocol tmpOf pool.shared pool.threads) ⟨.start files, []⟩ events := by
    refine always_of_guarded (fun pool event next holds allowed stepped => ?_)
      (protocol_start tmpOf files) inOrder
    exact step_bag (fun _ _ _ before fresh => Protocol.spawn before fresh)
      (fun _ _ _ _ _ _ before order moved => Protocol.move before order moved) holds allowed
      stepped
  exact protocol.imp fun pool holds quiet => holds.persisted quiet

/-! ### A reset that comes back -/

/-- A route of which the upload is counted, in the file `usage`. -/
def tracedRoute : Config.Route :=
  { hostPatterns := [], backendTemplates := [], strategy := .sequential
    cachePingTtlMillis := 0, fallback := none, modifyVirtualHost := false, proxyProtocol := false
    priority := 0, reconnect := {}, kickMessage := [], voicechatTemplates := []
    metrics := some ⟨some "usage".toList, ⟨true, -1⟩, ⟨false, -1⟩, 0⟩ }

/-- `with_extension("tmp")`, for a name without an extension. -/
def appendTmp (path : Text) : Text := path ++ ".tmp".toList

/-- The task at `i` takes `n` steps, in which no file operation fails. -/
def moves (i n : Nat) : List (Event Task Choice) := List.replicate n (.move i ⟨0, true⟩)

/-- The config is applied and 500 bytes are counted. -/
def counted : List (Event Task Choice) :=
  .spawn [.applyConfig [tracedRoute]] :: moves 0 10 ++ .spawn [.add 0 .upload 500] :: moves 1 3

/-- Then the ticker flushes the counter while it is reset. Both have read its values before the
first of them writes its file, and the ticker comes first. -/
def flushedThenReset : List (Event Task Choice) :=
  counted ++ .spawn [.applyScheduledResets, .flushAll] :: moves 2 10 ++
    .spawn [.reset tracedRoute] :: moves 3 10 ++ moves 2 4 ++ moves 3 4 ++ moves 2 2 ++ moves 3 2

theorem persisted_after_reset :
    Guarded (Threads.step Task.fresh (Task.advance appendTmp)) (AmongCond (InOrder appendTmp))
      ⟨.start ∅, []⟩ flushedThenReset ∧
    Always (Threads.step Task.fresh (Task.advance appendTmp))
      (fun pool => Quiescent pool → pool.shared.Persisted) ⟨.start ∅, []⟩ flushedThenReset :=
  have inOrder : Guarded (Threads.step Task.fresh (Task.advance appendTmp))
      (AmongCond (InOrder appendTmp)) ⟨.start ∅, []⟩ flushedThenReset := by decide +kernel
  ⟨inOrder, persisted_when_quiescent appendTmp ∅ flushedThenReset inOrder⟩

/-- The ticker has read the 500 bytes when the counter is reset, and writes its file last. -/
def resetOvertaken : List (Event Task Choice) :=
  counted ++ .spawn [.applyScheduledResets, .flushAll] :: moves 2 14 ++
    .spawn [.reset tracedRoute] :: moves 3 16 ++ moves 2 2

instance (pool : Pool Shared Task) : Decidable (Quiescent pool) :=
  inferInstanceAs (Decidable (∀ task ∈ pool.threads, task = []))

theorem reset_reappears :
    ¬ Always (Threads.step Task.fresh (Task.advance appendTmp))
      (fun pool => Quiescent pool → pool.shared.Persisted) ⟨.start ∅, []⟩ resetOvertaken := by
  intro always
  have first : Always (Threads.step Task.fresh (Task.advance appendTmp))
      (fun pool => Quiescent pool → pool.shared.failed = false →
        pool.shared.counters.lookup "usage".toList = some 0 → ∀ cell ∈ pool.shared.cells[0]?,
        cell.file = some "usage".toList → cell.dirty = false →
        loadedTotals (pool.shared.files.lookup "usage".toList) =
          totals cell.toRouteTrafficCounter) ⟨.start ∅, []⟩ resetOvertaken :=
    always.imp fun pool persisted quiet succeeded stored cell here file clean =>
      persisted quiet succeeded _ 0 cell _ stored here file clean
  exact absurd first (by decide +kernel)

end MCGate.MetricsTasks
