import MCGate.Lib.Machine
import MCGate.State.RouteMetricsStore

/-!
# Temporary files of metrics files

`flush_counter` writes the values of a counter to a temporary file and renames that to the
counter's file. The name of the temporary file is the file's with another extension, so two
files can have the same one, and a file can be the temporary one of another. Then what a rename
moves need not be what its flush wrote.

A file has many names. Which one a path names is up to the file system and the same throughout:
the parameter `names` says it, and two paths are told apart only by the files that they name.
-/
namespace MCGate

open Machine

/-! ### Extensions -/

/-- What stands before the last dot of a file name, unless nothing does. -/
def fileStem (name : Text) : Text :=
  match name.reverse.dropWhile (fun c => c ≠ '.') with
  | _ :: front => if front.isEmpty then name else front.reverse
  | [] => name

/-- `Path::with_extension`: a path that ends in no file name stays as it is; trailing
separators and dots are not part of the name. -/
def withExtension (path extension : Text) : Text :=
  match (path.splitOn '/').reverse.dropWhile (fun part => part = [] ∨ part = ['.']) with
  | [] => path
  | name :: parents =>
    if name = ['.', '.'] then path
    else List.intercalate ['/'] (parents.reverse ++ [fileStem name ++ '.' :: extension])

def tmpOf (path : Text) : Text := withExtension path "tmp".toList

example : tmpOf "data/a.b.json".toList = "data/a.b.tmp".toList := by decide

example : tmpOf ".metrics".toList = ".metrics.tmp".toList := by decide

/-! ### Flushes -/

/-- Values in a file. Only the statements read `counter`, the file of the counter that they were
flushed from. -/
structure Flushed where
  usage : UsageFile
  counter : Text
  deriving DecidableEq

/-- The files, and the flushes that have written and are about to rename, each by the path of
its counter. -/
structure MetricsFiles (φ : Type) where
  files : HashMap φ Flushed
  pending : List Text

/-- A step of a flush of the counter with this file. -/
inductive FlushStep where
  | write (path : Text) (usage : UsageFile)
  /-- `ok` is whether the file system lets it happen -/
  | rename (path : Text) (ok : Bool)

namespace MetricsFiles

variable {φ : Type} [DecidableEq φ] (names : Text → φ)

/-- The counters with these paths are flushed, each any number of times and at any time. A write
that fails ends its flush. -/
def step (paths : List Text) (s : MetricsFiles φ) : FlushStep → Option (MetricsFiles φ)
  | .write path usage =>
    if paths.contains path then
      some ⟨s.files.insert (names (tmpOf path)) ⟨usage, path⟩, path :: s.pending⟩
    else none
  | .rename path ok =>
    if s.pending.contains path then
      match s.files.lookup (names (tmpOf path)) with
      | some content =>
        if ok then
          some ⟨(s.files.erase (names (tmpOf path))).insert (names path) content,
            s.pending.erase path⟩
        else some { s with pending := s.pending.erase path }
      | none => some { s with pending := s.pending.erase path }
    else none

/-- What is in the metrics files was flushed from their own counters. -/
def Own (paths : List Text) (s : MetricsFiles φ) : Prop :=
  ∀ path ∈ paths, ∀ content, s.files.lookup (names path) = some content → content.counter = path

/-- No file is that of two counters, and no temporary file is shared or the file of another
counter. -/
def NoClash (paths : List Text) : Prop :=
  ∀ path ∈ paths, ∀ other ∈ paths, path ≠ other →
    names path ≠ names other ∧ names (tmpOf path) ≠ names (tmpOf other) ∧
      names (tmpOf path) ≠ names other

/-- So is what a pending rename finds in the temporary file. -/
structure Inv (paths : List Text) (s : MetricsFiles φ) : Prop where
  own : Own names paths s
  counters : ∀ path ∈ s.pending, path ∈ paths
  written : ∀ path ∈ s.pending, ∀ content, s.files.lookup (names (tmpOf path)) = some content →
    content.counter = path

variable {names} {paths : List Text} {s s' : MetricsFiles φ}

private theorem step_write {path : Text} (member : path ∈ paths) (s : MetricsFiles φ)
    (usage : UsageFile) :
    step names paths s (.write path usage) =
      some ⟨s.files.insert (names (tmpOf path)) ⟨usage, path⟩, path :: s.pending⟩ :=
  if_pos (List.contains_iff_mem.mpr member)

private theorem step_rename {path : Text} (waiting : path ∈ s.pending) {content : Flushed}
    (found : s.files.lookup (names (tmpOf path)) = some content) :
    step names paths s (.rename path true) =
      some ⟨(s.files.erase (names (tmpOf path))).insert (names path) content,
        s.pending.erase path⟩ := by
  simp only [step, if_pos (List.contains_iff_mem.mpr waiting), found, if_true]

private theorem inv_write {path : Text} (noClash : NoClash names paths) (inv : Inv names paths s)
    (usage : UsageFile) (member : path ∈ paths) :
    Inv names paths ⟨s.files.insert (names (tmpOf path)) ⟨usage, path⟩, path :: s.pending⟩ := by
  refine ⟨fun other inPaths content stored => ?_, ?_, fun other waiting content stored => ?_⟩
  · rw [HashMap.lookup_insert_eq] at stored
    split at stored
    next target =>
      cases stored
      -- the temporary file is nobody else's file
      by_contra apart
      exact (noClash path member other inPaths apart).2.2 target.symm
    next => exact inv.own other inPaths content stored
  · exact List.forall_mem_cons.mpr ⟨member, inv.counters⟩
  · rw [HashMap.lookup_insert_eq] at stored
    split at stored
    -- a flush that is to rename this temporary file is one of the same counter
    next shared =>
      cases stored
      by_contra apart
      have inPaths : other ∈ paths :=
        (List.mem_cons.mp waiting).elim (fun same => same ▸ member) (inv.counters other)
      exact (noClash path member other inPaths apart).2.1 shared.symm
    next others =>
      rcases List.mem_cons.mp waiting with rfl | waiting
      · exact absurd rfl others
      · exact inv.written other waiting content stored

private theorem inv_rename {path : Text} (noClash : NoClash names paths) (inv : Inv names paths s)
    (member : path ∈ s.pending) {content : Flushed}
    (found : s.files.lookup (names (tmpOf path)) = some content) :
    Inv names paths ⟨(s.files.erase (names (tmpOf path))).insert (names path) content,
      s.pending.erase path⟩ := by
  -- what is moved are the values of this counter, whichever flush wrote them last
  have mine := inv.written path member content found
  have known := inv.counters path member
  refine ⟨fun other inPaths moved stored => ?_,
    fun other waiting => inv.counters other (List.mem_of_mem_erase waiting),
    fun other waiting moved stored => ?_⟩
  · rw [HashMap.lookup_insert_eq] at stored
    split at stored
    next same =>
      cases stored
      rw [mine]
      by_contra apart
      exact (noClash path known other inPaths apart).1 same.symm
    next =>
      rw [HashMap.lookup_erase_eq] at stored
      split at stored
      · cases stored
      · exact inv.own other inPaths moved stored
  · have waiting := List.mem_of_mem_erase waiting
    rw [HashMap.lookup_insert_eq] at stored
    split at stored
    next target =>
      cases stored
      rw [mine]
      by_contra apart
      exact (noClash other (inv.counters other waiting) path known (Ne.symm apart)).2.2 target
    next =>
      rw [HashMap.lookup_erase_eq] at stored
      split at stored
      · cases stored
      · exact inv.written other waiting moved stored

theorem inv_step {flush : FlushStep} (noClash : NoClash names paths) (inv : Inv names paths s)
    (stepped : step names paths s flush = some s') : Inv names paths s' := by
  -- a rename that fails ends its flush and moves nothing
  have dropped (path : Text) : Inv names paths { s with pending := s.pending.erase path } :=
    ⟨inv.own, fun other waiting => inv.counters other (List.mem_of_mem_erase waiting),
      fun other waiting => inv.written other (List.mem_of_mem_erase waiting)⟩
  cases flush with
  | write path usage =>
    simp only [step] at stepped
    split at stepped
    next member =>
      cases stepped
      exact inv_write noClash inv usage (List.contains_iff_mem.mp member)
    next => cases stepped
  | rename path ok =>
    simp only [step] at stepped
    split at stepped
    next member =>
      split at stepped
      next content found =>
        split at stepped
        · cases stepped
          exact inv_rename noClash inv (List.contains_iff_mem.mp member) found
        · cases stepped
          exact dropped path
      next =>
        cases stepped
        exact dropped path
    next => cases stepped

/-- The files before any flush of this process. -/
def start (files : HashMap φ Flushed) : MetricsFiles φ := ⟨files, []⟩

def usage : UsageFile := ⟨some 1, some 1, some (-1), some (-1), some 0, some 0⟩

/-- Two counters of one temporary file, and the second writes before the first renames. -/
def overtaken (path other : Text) : List FlushStep :=
  [.write path usage, .write other usage, .rename path true]

/-- Values are in the wrong file after some run. -/
theorem not_own_of_run {events : List FlushStep} {t : MetricsFiles φ} {path : Text}
    {content : Flushed} (member : path ∈ paths)
    (ran : run (step names paths) (start ∅) events = some t)
    (stored : t.files.lookup (names path) = some content) (foreign : content.counter ≠ path) :
    ¬ Always (step names paths) (Own names paths) (start ∅) events := by
  intro always
  have held := always_iff_prefixes.mp always events [] t (List.append_nil _).symm ran
  exact foreign (held path member content stored)

section Clash

variable {path other : Text} (member : path ∈ paths) (inPaths : other ∈ paths)
  (apart : path ≠ other)

include member inPaths apart

/-- One file under two names has the values of either counter. -/
theorem not_own_of_same (same : names path = names other) :
    ∃ events, ¬ Always (step names paths) (Own names paths) (start ∅) events := by
  have first : step names paths (start ∅) (.write path usage) =
      some ⟨(∅ : HashMap φ Flushed).insert (names (tmpOf path)) ⟨usage, path⟩, [path]⟩ :=
    step_write member _ usage
  have second := @step_rename φ _ names paths
    ⟨(∅ : HashMap φ Flushed).insert (names (tmpOf path)) ⟨usage, path⟩, [path]⟩ path
    List.mem_cons_self ⟨usage, path⟩ (by rw [HashMap.lookup_insert_eq, if_pos rfl])
  have ran : run (step names paths) (start ∅) [.write path usage, .rename path true] = some _ :=
    run_cons_eq_some.mpr ⟨_, first, run_cons_eq_some.mpr ⟨_, second, rfl⟩⟩
  have foreign : (Flushed.mk usage path).counter ≠ other := apart
  refine ⟨_, not_own_of_run inPaths ran ?_ foreign⟩
  rw [HashMap.lookup_insert_eq, if_pos same.symm]

/-- Where a temporary file is shared, the first rename moves what the second flush wrote. -/
theorem not_own_of_shared (shared : names (tmpOf path) = names (tmpOf other)) :
    ∃ events, ¬ Always (step names paths) (Own names paths) (start ∅) events := by
  have first : step names paths (start ∅) (.write path usage) =
      some ⟨(∅ : HashMap φ Flushed).insert (names (tmpOf path)) ⟨usage, path⟩, [path]⟩ :=
    step_write member _ usage
  have second (s : MetricsFiles φ) : step names paths s (.write other usage) =
      some ⟨s.files.insert (names (tmpOf path)) ⟨usage, other⟩, other :: s.pending⟩ := by
    rw [shared]
    exact step_write inPaths s usage
  have third := @step_rename φ _ names paths
    ⟨((∅ : HashMap φ Flushed).insert (names (tmpOf path)) ⟨usage, path⟩).insert
      (names (tmpOf path)) ⟨usage, other⟩, [other, path]⟩ path
    (List.mem_cons_of_mem other List.mem_cons_self) ⟨usage, other⟩
    (by rw [HashMap.lookup_insert_eq, if_pos rfl])
  have ran : run (step names paths) (start ∅) (overtaken path other) = some _ :=
    run_cons_eq_some.mpr ⟨_, first, run_cons_eq_some.mpr ⟨_, second _,
      run_cons_eq_some.mpr ⟨_, third, rfl⟩⟩⟩
  have foreign : (Flushed.mk usage other).counter ≠ path := apart.symm
  refine ⟨_, not_own_of_run member ran ?_ foreign⟩
  rw [HashMap.lookup_insert_eq, if_pos rfl]

/-- Where a temporary file is another counter's file, a write is enough. -/
theorem not_own_of_target (target : names (tmpOf path) = names other) :
    ∃ events, ¬ Always (step names paths) (Own names paths) (start ∅) events := by
  have ran : run (step names paths) (start ∅) [.write path usage] =
      some ⟨(∅ : HashMap φ Flushed).insert (names (tmpOf path)) ⟨usage, path⟩, [path]⟩ :=
    run_cons_eq_some.mpr ⟨_, step_write member _ usage, rfl⟩
  have foreign : (Flushed.mk usage path).counter ≠ other := apart
  refine ⟨_, not_own_of_run inPaths ran ?_ foreign⟩
  rw [HashMap.lookup_insert_eq, if_pos target.symm]

end Clash

/-- Every metrics file only ever has values of its own counter, whatever was in the files of the
counters before and however the flushes overlap, exactly when the files do not clash. -/
theorem own_iff_noClash (names : Text → φ) (paths : List Text) :
    (∀ files, Own names paths (start files) →
      ∀ events, Always (step names paths) (Own names paths) (start files) events) ↔
      NoClash names paths := by
  constructor
  · intro own path member other inPaths apart
    have always := own ∅ (fun _ _ _ stored => by cases stored)
    refine ⟨fun same => ?_, fun shared => ?_, fun target => ?_⟩
    · obtain ⟨events, wrong⟩ := not_own_of_same member inPaths apart same
      exact wrong (always events)
    · obtain ⟨events, wrong⟩ := not_own_of_shared member inPaths apart shared
      exact wrong (always events)
    · obtain ⟨events, wrong⟩ := not_own_of_target member inPaths apart target
      exact wrong (always events)
  · intro noClash files own events
    have initial : Inv names paths (start files) := ⟨own, nofun, nofun⟩
    exact (always_of_keep (fun _ _ _ inv stepped => inv_step noClash inv stepped) events
      initial).imp fun _ inv => inv.own

/-- `a.json` and `a.dat` share `a.tmp`. -/
theorem json_and_dat_mixed :
    ¬ ∀ (φ : Type) [DecidableEq φ] (names : Text → φ) (paths : List Text),
      (paths.map names).Nodup → ∀ files, Own names paths (start files) →
      ∀ events, Always (step names paths) (Own names paths) (start files) events := by
  intro own
  have always := own Text id ["data/a.json".toList, "data/a.dat".toList] (by decide) ∅
    (fun _ _ _ stored => by cases stored)
    (overtaken "data/a.json".toList "data/a.dat".toList)
  have held := always_iff_prefixes.mp always _ [] _ (List.append_nil _).symm rfl
    "data/a.json".toList (by decide) ⟨usage, "data/a.dat".toList⟩ (by decide)
  exact absurd held (by decide)

/-! ### One flush with nothing in between -/

/-- The files of the store, which knows them by their paths, with the counters that their values
are from. -/
def Agrees (names : Text → φ) (store : RouteMetricsStore) (s : MetricsFiles φ) : Prop :=
  ∀ path, store.files.lookup path =
    (s.files.lookup (names path)).map fun content => some content.usage

/-- `flush_counter` is a write and a rename, where each path names a file of its own. -/
theorem flushCounter_agrees (distinct : Function.Injective names) {store : RouteMetricsStore}
    (agrees : Agrees names store s) {arc : Nat} {counter : RouteTrafficCounter}
    (here : store.allocated[arc]? = some counter) {path : Text}
    (file : counter.file = some path) (member : path ∈ paths) (nowMillis : Int64) :
    ∃ t, run (step names paths) s [.write path (counter.usage nowMillis), .rename path true] =
        some t ∧
      Agrees names (store.flushCounter tmpOf arc true nowMillis true) t := by
  let content : Flushed := ⟨counter.usage nowMillis, path⟩
  let between : MetricsFiles φ :=
    ⟨s.files.insert (names (tmpOf path)) content, path :: s.pending⟩
  let after : MetricsFiles φ := ⟨(between.files.erase (names (tmpOf path))).insert (names path)
    content, between.pending.erase path⟩
  have written : step names paths s (.write path (counter.usage nowMillis)) = some between :=
    step_write member s _
  have renamed : step names paths between (.rename path true) = some after := by
    have found : between.files.lookup (names (tmpOf path)) = some content := by
      rw [HashMap.lookup_insert_eq, if_pos rfl]
    exact step_rename List.mem_cons_self found
  have ran : run (step names paths) s
      [.write path (counter.usage nowMillis), .rename path true] = some after :=
    run_cons_eq_some.mpr ⟨_, written, run_cons_eq_some.mpr ⟨_, renamed, rfl⟩⟩
  refine ⟨after, ran, fun other => ?_⟩
  simp only [after, between, RouteMetricsStore.flushCounter, here, file, not_true_eq_false,
    false_and, if_false, if_true, HashMap.lookup_insert_eq, HashMap.lookup_erase_eq, agrees other,
    distinct.eq_iff]
  split
  · rfl
  · split <;> rfl

end MetricsFiles

end MCGate
