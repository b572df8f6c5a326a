import MCGate.Lib.Threads
import MCGate.State.RouteMetricsStore

/-!
# Route metrics, step by step

The relays, the ticker, the resets of the API and of the console and `apply_config` use the
counters at once. A counter is a handful of atomics: nothing but the order of the accesses ties
its bytes to its `dirty` flag and to its file. Here each access to an atomic, each section under
a lock and each file operation is an instruction, and a task is the list of instructions that
it has yet to run. An instruction may put others in its place, where the source goes on by what
it has read.
-/
namespace MCGate.MetricsTasks

open Config Threads

/-- A counter. Only the statements read the rest: `tracked`, whether it was ever given a file,
`issued`, how many of its flushes have cleared `dirty` and gone on, and `touched`, the last of
them that has changed its file. -/
structure Cell extends RouteTrafficCounter where
  tracked : Bool
  issued : Nat
  touched : Nat

/-- What the tasks share. Only the statements read `failed`, whether a file operation failed. -/
structure Shared where
  cells : List Cell
  counters : HashMap Text Nat
  files : HashMap Text (Option UsageFile)
  locked : Bool
  failed : Bool

/-- A setting that `apply_config` stores. -/
inductive Setting where
  | uploadEnabled (value : Bool)
  | downloadEnabled (value : Bool)
  | uploadLimit (value : Int64)
  | downloadLimit (value : Int64)
  | resetIntervalMillis (value : Int64)

inductive Instr where
  /-- `add_upload` or `add_download` tests whether the direction is enabled -/
  | add (arc : Nat) (direction : Direction) (n : Int64)
  | fetchAdd (arc : Nat) (direction : Direction) (n : Int64)
  /-- `dirty.store(true)` -/
  | storeDirty (arc : Nat)
  /-- `upload_bytes.store(0)` or `download_bytes.store(0)` -/
  | storeBytes (arc : Nat) (direction : Direction)
  /-- `zero` reads `reset_interval_millis` -/
  | zeroResetAt (arc : Nat)
  | storeResetAt (arc : Nat) (resetAt : Int64)
  /-- `flush_counter` clones the path -/
  | flushCounter (arc : Nat) (force : Bool)
  | swapDirty (arc : Nat) (force : Bool) (path : Text)
  /-- the next field of the JSON is read -/
  | load (arc : Nat) (path : Text) (ticket : Nat) (usage : UsageFile)
  | writeTmp (arc : Nat) (path : Text) (ticket : Nat) (usage : UsageFile)
  | rename (arc : Nat) (path : Text) (ticket : Nat)
  /-- `apply_scheduled_resets` reads the clock -/
  | applyScheduledResets
  | collectResets (now : Int64)
  | loadInterval (arc : Nat) (now : Int64)
  | loadResetAt (arc : Nat) (now interval : Int64)
  /-- the loop of the ticker over `all_counters()` -/
  | flushAll
  | reset (route : Config.Route)
  | resetAll
  | applyConfig (routes : List Config.Route)
  /-- `retain` drops the counter that was flushed -/
  | drop (key : Text)
  /-- `entry(key).or_insert_with(..)` -/
  | ensure (key : Text) (m : RouteMetricsConfig)
  | setFile (arc : Nat) (file : Option Text)
  | storeSetting (arc : Nat) (setting : Setting)
  /-- the end of the loop body of `apply_config` -/
  | updateResetAt (arc : Nat) (interval : Int64)
  | unlock

/-- The instructions that are left. -/
abbrev Task := List Instr

/-- What the environment decides at a step: the clock, and whether a file operation succeeds. -/
structure Choice where
  now : Int64
  ok : Bool

/-- What a flush has read, with the next field; `none` if it has all. -/
def loadNext (usage : UsageFile) (counter : RouteTrafficCounter) (now : Int64) :
    Option UsageFile :=
  if usage.uploadBytes.isNone then some { usage with uploadBytes := some counter.uploadBytes }
  else if usage.downloadBytes.isNone then
    some { usage with downloadBytes := some counter.downloadBytes }
  else if usage.uploadLimit.isNone then some { usage with uploadLimit := some counter.uploadLimit }
  else if usage.downloadLimit.isNone then
    some { usage with downloadLimit := some counter.downloadLimit }
  else if usage.resetAt.isNone then some { usage with resetAt := some counter.resetAt }
  else if usage.updatedAt.isNone then some { usage with updatedAt := some now }
  else none

def Setting.store (setting : Setting) (cell : Cell) : Cell :=
  match setting with
  | .uploadEnabled value => { cell with uploadEnabled := value }
  | .downloadEnabled value => { cell with downloadEnabled := value }
  | .uploadLimit value => { cell with uploadLimit := value }
  | .downloadLimit value => { cell with downloadLimit := value }
  | .resetIntervalMillis value => { cell with resetIntervalMillis := value }

namespace Cell

def fetchAdd (cell : Cell) (direction : Direction) (n : Int64) : Cell :=
  { cell with toRouteTrafficCounter := cell.toRouteTrafficCounter.fetchAdd direction n }

def storeBytes (cell : Cell) : Direction → Cell
  | .upload => { cell with uploadBytes := 0 }
  | .download => { cell with downloadBytes := 0 }

/-- A counter that was just created and has read what was in its file. -/
def created (key : Text) (m : RouteMetricsConfig) (content : Option UsageFile) : Cell :=
  ⟨(RouteTrafficCounter.new key).loadPersisted content, m.file.isSome, 0, 0⟩

end Cell

namespace Shared

def start (files : HashMap Text (Option UsageFile)) : Shared := ⟨[], ∅, files, false, false⟩

def modify (s : Shared) (arc : Nat) (f : Cell → Cell) : Shared :=
  { s with cells := s.cells.modify arc f }

/-- A file operation of a flush fails. -/
def fail (s : Shared) (arc : Nat) : Shared :=
  { s.modify arc fun cell => { cell with dirty := true } with failed := true }

def arcs (s : Shared) : List Nat := s.counters.entries.map Sigma.snd

end Shared

namespace Instr

/-- `zero` -/
def zero (arc : Nat) : List Instr :=
  [.storeBytes arc .upload, .storeBytes arc .download, .zeroResetAt arc, .storeDirty arc]

/-- The rest of the loop body of `apply_config`. -/
def configure (arc : Nat) (m : RouteMetricsConfig) : List Instr :=
  [.setFile arc m.file, .storeSetting arc (.uploadEnabled m.upload.enabled),
    .storeSetting arc (.downloadEnabled m.download.enabled),
    .storeSetting arc (.uploadLimit m.upload.limit),
    .storeSetting arc (.downloadLimit m.download.limit),
    .storeSetting arc (.resetIntervalMillis m.resetIntervalMillis),
    .updateResetAt arc m.resetIntervalMillis]

/-- The counters that `retain` drops are flushed first. -/
def retire (wanted : HashMap Text RouteMetricsConfig) (entries : List (Σ _ : Text, Nat)) :
    List Instr :=
  entries.flatMap fun entry =>
    if (wanted.lookup entry.1).isSome then []
    else [.flushCounter entry.2 true, .drop entry.1]

-- `tmpOf` is `Path::with_extension("tmp")`
variable (tmpOf : Text → Text)

/-- One instruction, with those that take its place. -/
def exec (s : Shared) (choice : Choice) : Instr → Option (Shared × List Instr)
  | .add arc direction n => do
    let cell ← s.cells[arc]?
    return (s, if cell.enabled direction ∧ 0 < n then
      [.fetchAdd arc direction n, .storeDirty arc] else [])
  | .fetchAdd arc direction n => some (s.modify arc fun cell => cell.fetchAdd direction n, [])
  | .storeDirty arc => some (s.modify arc fun cell => { cell with dirty := true }, [])
  | .storeBytes arc direction => some (s.modify arc fun cell => cell.storeBytes direction, [])
  | .zeroResetAt arc => do
    let cell ← s.cells[arc]?
    return (s, if 0 < cell.resetIntervalMillis then
      [.storeResetAt arc (choice.now + cell.resetIntervalMillis)] else [])
  | .storeResetAt arc resetAt => some (s.modify arc fun cell => { cell with resetAt }, [])
  | .flushCounter arc force => do
    let cell ← s.cells[arc]?
    match cell.file with
    | none => return (s, [])
    | some path => return (s, [.swapDirty arc force path])
  | .swapDirty arc force path => do
    let cell ← s.cells[arc]?
    if ¬ force ∧ ¬ cell.dirty then
      return (s.modify arc fun cell => { cell with dirty := false }, [])
    else
      return (s.modify arc fun cell => { cell with dirty := false, issued := cell.issued + 1 },
        [.load arc path (cell.issued + 1) ⟨none, none, none, none, none, none⟩])
  | .load arc path ticket usage => do
    let cell ← s.cells[arc]?
    match loadNext usage cell.toRouteTrafficCounter choice.now with
    | some more => return (s, [.load arc path ticket more])
    | none => return (s, [.writeTmp arc path ticket usage])
  | .writeTmp arc path ticket usage =>
    if choice.ok then
      let written := { s with files := s.files.insert (tmpOf path) (some usage) }
      some (if tmpOf path = path then
        written.modify arc fun cell => { cell with touched := ticket } else written,
        [.rename arc path ticket])
    else some (s.fail arc, [])
  | .rename arc path ticket =>
    match s.files.lookup (tmpOf path), choice.ok with
    | some content, true =>
      let renamed := { s with files := (s.files.erase (tmpOf path)).insert path content }
      some (if tmpOf path = path then renamed
        else renamed.modify arc fun cell => { cell with touched := ticket }, [])
    | _, _ => some (s.fail arc, [])
  | .applyScheduledResets => some (s, [.collectResets choice.now])
  | .collectResets now =>
    if s.locked then none else some (s, s.arcs.map fun arc => .loadInterval arc now)
  | .loadInterval arc now => do
    let cell ← s.cells[arc]?
    return (s, [.loadResetAt arc now cell.resetIntervalMillis])
  | .loadResetAt arc now interval => do
    let cell ← s.cells[arc]?
    if interval ≤ 0 ∨ cell.resetAt ≤ 0 ∨ now < cell.resetAt then return (s, [])
    else
      let missed := (now - cell.resetAt) / interval
      return (s, [.storeBytes arc .upload, .storeBytes arc .download,
        .storeResetAt arc (cell.resetAt + (missed + 1) * interval), .storeDirty arc])
  | .flushAll =>
    if s.locked then none else some (s, s.arcs.map fun arc => .flushCounter arc false)
  | .reset route =>
    if s.locked then none
    else
      match (keyFor route).bind s.counters.lookup with
      | none => some (s, [])
      | some arc => some (s, zero arc ++ [.flushCounter arc true])
  | .resetAll =>
    if s.locked then none
    else some ({ s with locked := true },
      (s.arcs.flatMap fun arc => zero arc ++ [.flushCounter arc true]) ++ [.unlock])
  | .applyConfig routes =>
    if s.locked then none
    else
      let wanted := desired routes ∅
      some ({ s with locked := true }, retire wanted s.counters.entries ++
        wanted.entries.map (fun entry => .ensure entry.1 entry.2) ++ [.unlock])
  | .drop key => some ({ s with counters := s.counters.erase key }, [])
  | .ensure key m =>
    match s.counters.lookup key with
    | some arc => some (s, configure arc m)
    | none =>
      -- a file that is not there, or is not read, leaves the counter as it is
      let content := if choice.ok then (m.file.bind s.files.lookup).getD none else none
      some (
        { s with
          cells := s.cells ++ [.created key m content]
          counters := s.counters.insert key s.cells.length
          failed := s.failed || m.file.isSome && !choice.ok },
        configure s.cells.length m)
  | .setFile arc file =>
    some (s.modify arc fun cell => { cell with file, tracked := cell.tracked || file.isSome }, [])
  | .storeSetting arc setting => some (s.modify arc setting.store, [])
  | .updateResetAt arc interval => do
    let cell ← s.cells[arc]?
    match cell.nextReset interval choice.now with
    | none => return (s, [])
    | some resetAt => return (s, [.storeResetAt arc resetAt, .storeDirty arc])
  | .unlock => some ({ s with locked := false }, [])

end Instr

namespace Task

variable (tmpOf : Text → Text)

def advance (s : Shared) (task : Task) (choice : Choice) : Option (Shared × Task) :=
  match task with
  | [] => none
  | instr :: rest => do
    let (s, first) ← instr.exec tmpOf s choice
    return (s, first ++ rest)

/-- A relay has passed on bytes, the ticker ticks, a reset is asked for, a config is applied. -/
def fresh : Task → Bool
  | [.add _ _ _] => true
  | [.applyScheduledResets, .flushAll] => true
  | [.reset _] => true
  | [.resetAll] => true
  | [.applyConfig _] => true
  | _ => false

end Task

/-- No task has anything left to do. -/
def Quiescent (pool : Pool Shared Task) : Prop := ∀ task ∈ pool.threads, task = []

end MCGate.MetricsTasks
