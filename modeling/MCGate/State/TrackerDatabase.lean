import MCGate.Lib.Sql
import MCGate.State.Tracking

/-!
# The tracker's database

Each writer of the tracker has opened a database file, which may hold rows of earlier writers or
of an earlier process. It hands every batch to `write_batch`, one transaction that commits or
fails as a whole, and prunes the table between two rounds of its loop. What SQLite does with a
statement is a parameter, of which only the documentation is known. When a prune is due, and what
else may go wrong, is up to the environment.

So of a record that was accepted one can say where it went: into one batch, and if that was
committed into the table, where it stays until a prune has a reason to delete it.
-/
namespace MCGate

open Config Machine

variable {Record : Type}

namespace TrackerWriter

/-- The batch that the next step of the thread hands to `write_batch`. -/
def handed (w : TrackerWriter Record) : Option (List Record) :=
  match w.phase with
  | .writing batch => some batch
  | .flushing remaining => if remaining.isEmpty then none else some remaining
  | _ => none

/-- A step passes on the batch it hands to `write_batch`, and no other. -/
theorem Moves.passed {hint hint' : Int64} {w w' : TrackerWriter Record}
    (moves : Moves hint w hint' w') (unfinished : w.phase ≠ .finished → w.flushed = [])
    (advanced : ∃ arm, w.advance hint arm = some (hint', w')) :
    w'.written ++ w'.flushed = w.written ++ w.flushed ++ w.handed.toList := by
  have none_flushed := unfinished moves.unfinished
  obtain ⟨arm, moved⟩ := advanced
  unfold advance at moved
  unfold handed
  split at moved
  next phase =>
    rw [phase]
    split at moved
    · split at moved
      · cases moved
        simp
      · split at moved <;> cases moved
        simp
    · split at moved <;> cases moved
      simp
    · split at moved <;> cases moved
      simp
  -- filling the batch hands over nothing yet
  next batch phase =>
    rw [phase]
    split at moved
    · split at moved <;> cases moved <;> simp
    · cases moved
      simp
  next batch phase =>
    cases moved
    simp [phase, none_flushed]
  next n phase =>
    cases moved
    simp [phase]
  next remaining phase =>
    rw [phase]
    split at moved <;> cases moved <;> simp
  next remaining phase =>
    rw [phase]
    dsimp only
    split at moved
    next empty =>
      cases moved
      simp [empty]
    next some =>
      cases moved
      simp [some]
  next => cases moved

end TrackerWriter

/-- `connections` is the only table. -/
abbrev NoChildren : Empty → Type := Empty.elim

/-- A database file. Only the statements read what was ever in its table, and the prunes. -/
structure TrackerFile (σ Record : Type) where
  db : σ
  ever : List (Int × Record)
  prunes : List (Sql.Prune Record)

namespace TrackerFile

variable {σ : Type} (sqlite : Sql.Engine σ Record NoChildren) (connectedAt : Record → Int64)

/-- `open_connection` leaves a table that is there. -/
def opened (db : σ) : TrackerFile σ Record := ⟨db, sqlite.rows db, []⟩

/-- One transaction, and whether it was committed: if not, it is rolled back. -/
def writeBatch (self : TrackerFile σ Record) (batch : List Record) (commits : Bool) :
    TrackerFile σ Record × Bool :=
  if batch.isEmpty then (self, true)
  else
    match sqlite.insertAll self.db batch, commits with
    | some db, true =>
      let added := (sqlite.rows db).drop (sqlite.rows self.db).length
      ({ self with db, ever := self.ever ++ added }, true)
    | _, _ => (self, false)

def cutoff (cfg : ConnectionTrackingConfig) (nowMillis : Int64) : Int64 :=
  nowMillis - cfg.retentionDays.toInt64 * 86400000

def prune (self : TrackerFile σ Record) (cfg : ConnectionTrackingConfig) (nowMillis : Int64)
    (extent : Sql.Extent) : TrackerFile σ Record :=
  let expired := fun rec => decide (connectedAt rec < cutoff cfg nowMillis)
  let done := sqlite.prune self.db expired cfg.maxRecords.toInt extent
  { self with
    db := done.1
    prunes := ⟨sqlite.rows self.db, sqlite.sequence self.db, expired, cfg.maxRecords.toInt,
      done.2⟩ :: self.prunes }

end TrackerFile

/-- A call of `write_batch`: by which writer, on which file, and whether it was committed. -/
structure Transaction (φ Record : Type) where
  writer : Nat
  file : φ
  batch : List Record
  committed : Bool

/-- The tracker with the files. Only the statements read the transactions. -/
structure Recorded (σ φ Record : Type) where
  tracking : Tracking Record
  files : φ → TrackerFile σ Record
  log : List (Transaction φ Record)

inductive RecordedEvent (Record : Type) where
  /-- the tracker takes a step; a transaction of it may commit if `commits` -/
  | track (event : TrackingEvent Record) (commits : Bool)
  /-- the writer finds that a prune is due, which comes no further than `extent` -/
  | prune (i : Nat) (nowMillis : Int64) (extent : Sql.Extent)

namespace Recorded

-- `names` is the file that a path leads to: two paths may lead to one
variable {σ φ : Type} [DecidableEq φ] (sqlite : Sql.Engine σ Record NoChildren)
  (names : Text → φ) (connectedAt : Record → Int64)

def start (files : φ → σ) : Recorded σ φ Record :=
  ⟨.start, fun file => .opened sqlite (files file), []⟩

/-- The writer at `i` passes its batch to `write_batch`. -/
def pass (s : Recorded σ φ Record) (i : Nat) (w : TrackerWriter Record) (batch : List Record)
    (commits : Bool) : Recorded σ φ Record :=
  let file := names w.cfg.dbPath
  let done := (s.files file).writeBatch sqlite batch commits
  { s with
    files := Function.update s.files file done.1
    log := s.log ++ [⟨i, file, batch, done.2⟩] }

def step (s : Recorded σ φ Record) : RecordedEvent Record → Option (Recorded σ φ Record)
  | .track event commits => do
    let tracking ← s.tracking.step event
    let passed := match event with
      | .write i _ =>
        match s.tracking.writers[i]? with
        | none => s
        | some w =>
          match w.handed with
          | none => s
          | some batch => s.pass sqlite names i w batch commits
      | _ => s
    some { passed with tracking }
  | .prune i nowMillis extent => do
    let w ← s.tracking.writers[i]?
    match w.phase with
    | .selecting =>
      let file := names w.cfg.dbPath
      some { s with
        files := Function.update s.files file
          ((s.files file).prune sqlite connectedAt w.cfg nowMillis extent) }
    | _ => none

/-- The batches of a writer, in their order. -/
def batchesOf (s : Recorded σ φ Record) (i : Nat) : List (List Record) :=
  (s.log.filter fun entry => entry.writer = i).map Transaction.batch

/-- What was committed to a file, in its order. -/
def committedTo (s : Recorded σ φ Record) (file : φ) : List Record :=
  (s.log.filter fun entry => entry.file = file && entry.committed).flatMap Transaction.batch

end Recorded

/-! ### What other steps leave of a writer -/

namespace TrackerWriter

/-- The writer has passed on the same batches, and writes to the same file. -/
structure Alike (w w' : TrackerWriter Record) : Prop where
  passed : w'.written ++ w'.flushed = w.written ++ w.flushed
  cfg : w'.cfg = w.cfg

theorem Alike.refl (w : TrackerWriter Record) : Alike w w := ⟨rfl, rfl⟩

private theorem alike_of_trySend {w w' : TrackerWriter Record} {rec : Record}
    (sent : w.trySend rec = some w') : Alike w w' := by
  unfold trySend at sent
  split at sent
  · cases sent
  · split at sent <;> cases sent
    exact ⟨rfl, rfl⟩

end TrackerWriter

namespace Tracking

open TrackerWriter

variable {s s' : Tracking Record} {i j : Nat} {w w' : TrackerWriter Record}

/-- Each writer is like the one that was there, or has just been spawned. -/
def WritersStay (s s' : Tracking Record) : Prop :=
  s.writers.length ≤ s'.writers.length ∧ ∀ i w', s'.writers[i]? = some w' →
    (∃ w, s.writers[i]? = some w ∧ Alike w w') ∨
      (s.writers.length ≤ i ∧ w'.written ++ w'.flushed = [])

private theorem writersStay_of_eq (same : s'.writers = s.writers) : WritersStay s s' := by
  refine ⟨Nat.le_of_eq (by rw [same]), fun i w' at_i => .inl ⟨w', ?_, .refl w'⟩⟩
  rw [← same, at_i]

private theorem writersStay_of_set (at_j : s.writers[j]? = some w)
    (same : s'.writers = s.writers.set j w') (alike : Alike w w') : WritersStay s s' := by
  refine ⟨Nat.le_of_eq (by rw [same, List.length_set]), fun i w'' at_i => .inl ?_⟩
  rw [same] at at_i
  by_cases here : j = i
  · subst here
    rw [List.getElem?_set_self (List.getElem?_eq_some_iff.mp at_j).1] at at_i
    cases at_i
    exact ⟨w, at_j, alike⟩
  · rw [List.getElem?_set_ne here] at at_i
    exact ⟨w'', at_i, .refl w''⟩

private theorem writersStay_proceed {opened : Bool} (stepped : s.proceed opened = some s') :
    WritersStay s s' := by
  unfold proceed at stepped
  -- one case for each stage of a restart, in the order of `proceed`
  split at stepped
  next => cases stepped
  next =>
    split at stepped <;> cases stepped
    exact writersStay_of_eq rfl
  next =>
    obtain ⟨w, at_i, same⟩ := Option.bind_eq_some_iff.mp stepped
    cases same
    exact writersStay_of_set at_i rfl ⟨rfl, rfl⟩
  next =>
    obtain ⟨w, at_i, same⟩ := Option.bind_eq_some_iff.mp stepped
    cases same
    exact writersStay_of_set at_i rfl ⟨rfl, rfl⟩
  next =>
    obtain ⟨w, at_i, same⟩ := Option.bind_eq_some_iff.mp stepped
    split at same <;> cases same
    exact writersStay_of_set at_i rfl ⟨rfl, rfl⟩
  next =>
    cases stepped
    exact writersStay_of_eq rfl
  next =>
    cases stepped
    exact writersStay_of_eq rfl
  next =>
    cases stepped
    exact writersStay_of_eq rfl
  next =>
    cases stepped
    exact writersStay_of_eq rfl
  next cfg =>
    split at stepped
    · cases stepped
      refine ⟨by simp, fun i w' at_i => ?_⟩
      dsimp only at at_i
      rw [List.getElem?_append] at at_i
      split at at_i
      · exact .inl ⟨w', at_i, .refl w'⟩
      next beyond =>
        rw [List.mem_singleton.mp (List.mem_of_getElem? at_i)]
        exact .inr ⟨Nat.not_lt.mp beyond, rfl⟩
    · cases stepped
      exact writersStay_of_eq rfl
  next =>
    split at stepped <;> cases stepped
    exact writersStay_of_eq rfl

/-- Only a step of its own lets a writer pass on a batch. -/
theorem writersStay_of_step {event : TrackingEvent Record} (stepped : s.step event = some s')
    (other : ∀ i arm, event ≠ .write i arm) : WritersStay s s' := by
  cases event with
  | record rec =>
    simp only [step] at stepped
    split at stepped
    · cases stepped
    · split at stepped
      · cases stepped
        exact writersStay_of_eq rfl
      · obtain ⟨w, at_i, same⟩ := Option.bind_eq_some_iff.mp stepped
        cases same
        exact writersStay_of_set at_i rfl ⟨rfl, rfl⟩
  | trySend =>
    simp only [step] at stepped
    split at stepped
    · obtain ⟨w, at_i, same⟩ := Option.bind_eq_some_iff.mp stepped
      split at same
      next w' sent =>
        cases same
        exact writersStay_of_set at_i rfl (alike_of_trySend sent)
      next =>
        cases same
        exact writersStay_of_eq rfl
    · cases stepped
  | count =>
    simp only [step] at stepped
    split at stepped <;> cases stepped <;> exact writersStay_of_eq rfl
  | applyConfig cfg =>
    simp only [step] at stepped
    split at stepped
    · split at stepped <;> cases stepped <;> exact writersStay_of_eq rfl
    · cases stepped
  | shutdown =>
    simp only [step] at stepped
    split at stepped <;> cases stepped
    exact writersStay_of_eq rfl
  | proceed opened => exact writersStay_proceed stepped
  | write i arm => exact absurd rfl (other i arm)

end Tracking

/-! ### Files and writers -/

namespace TrackerFile

variable {σ : Type} {sqlite : Sql.Engine σ Record NoChildren} {connectedAt : Record → Int64}
  {self : TrackerFile σ Record}

/-- Every row there ever was is in the table or has a prune to blame. -/
def Kept (sqlite : Sql.Engine σ Record NoChildren) (self : TrackerFile σ Record) : Prop :=
  Sql.Kept (sqlite.rows self.db) (sqlite.sequence self.db) self.ever self.prunes

private theorem kept_opened (db : σ) : (opened sqlite db).Kept sqlite := .start _ _

/-- A transaction adds its batch, or leaves the file as it was. -/
theorem writeBatch_cases (documented : sqlite.Documented) (self : TrackerFile σ Record)
    (batch : List Record) (commits : Bool) :
    (∃ added, added.map Prod.snd = batch ∧ (self.writeBatch sqlite batch commits).2 = true ∧
      (self.writeBatch sqlite batch commits).1.ever = self.ever ++ added ∧
      (self.Kept sqlite → (self.writeBatch sqlite batch commits).1.Kept sqlite)) ∨
    self.writeBatch sqlite batch commits = (self, false) := by
  unfold writeBatch
  split
  next empty =>
    have nothing : batch = [] := List.isEmpty_iff.mp empty
    exact .inl ⟨[], nothing.symm, rfl, (List.append_nil _).symm, id⟩
  next =>
    split
    next db inserted =>
      obtain ⟨added, rows, values, new, later⟩ := documented.insertAll inserted
      -- the rows of the batch are those behind the rows that were there
      have found : (sqlite.rows db).drop (sqlite.rows self.db).length = added := by
        rw [rows, List.drop_left]
      refine .inl ⟨added, values, rfl, by rw [← found], fun kept => ?_⟩
      have more := Sql.Kept.append kept new later
      rw [← rows] at more
      rw [Kept, found]
      exact more
    next => exact .inr rfl

theorem Kept.prune (documented : sqlite.Documented) (kept : self.Kept sqlite)
    (cfg : ConnectionTrackingConfig) (nowMillis : Int64) (extent : Sql.Extent) :
    (self.prune sqlite connectedAt cfg nowMillis extent).Kept sqlite := by
  have fewer := Sql.Kept.prune kept (documented.sorted _)
    (fun rec => decide (connectedAt rec < cutoff cfg nowMillis)) cfg.maxRecords.toInt
    (sqlite.prune self.db (fun rec => decide (connectedAt rec < cutoff cfg nowMillis))
      cfg.maxRecords.toInt extent).2
  rw [← documented.rows_prune] at fewer
  rw [Kept, TrackerFile.prune]
  dsimp only
  rw [documented.sequence_prune]
  exact fewer

end TrackerFile

namespace Recorded

open Tracking TrackerWriter

variable {σ φ : Type} [DecidableEq φ] {sqlite : Sql.Engine σ Record NoChildren}
  {names : Text → φ} {connectedAt : Record → Int64} {files : φ → σ}
  {s s' : Recorded σ φ Record} {tracking : Tracking Record} {i : Nat}
  {w w' : TrackerWriter Record}

/-- The files and the transactions fit what the writers have passed on. -/
structure Consistent (sqlite : Sql.Engine σ Record NoChildren) (names : Text → φ)
    (files : φ → σ) (s : Recorded σ φ Record) : Prop where
  tracking : s.tracking.Consistent
  kept : ∀ file, (s.files file).Kept sqlite
  ever : ∀ file, (s.files file).ever.map Prod.snd =
    (sqlite.rows (files file)).map Prod.snd ++ s.committedTo file
  passed : ∀ i w, s.tracking.writers[i]? = some w → s.batchesOf i = w.written ++ w.flushed
  known : ∀ entry ∈ s.log, entry.writer < s.tracking.writers.length
  file : ∀ entry ∈ s.log, ∀ w, s.tracking.writers[entry.writer]? = some w →
    entry.file = names w.cfg.dbPath

theorem consistent_start (files : φ → σ) :
    Consistent sqlite names files (start sqlite files) where
  tracking := Tracking.consistent_start
  kept file := TrackerFile.kept_opened (files file)
  ever file := (List.append_nil _).symm
  passed i w at_i := by cases at_i
  known entry member := by cases member
  file entry member := by cases member

/-- No writer passes on a batch. -/
theorem consistent_stay (consistent : Consistent sqlite names files s)
    (next : tracking.Consistent) (stay : WritersStay s.tracking tracking) :
    Consistent sqlite names files { s with tracking } := by
  obtain ⟨more, each⟩ := stay
  refine { consistent with tracking := next, passed := ?_, known := ?_, file := ?_ }
  · intro i w' at_i
    rcases each i w' at_i with ⟨w, before, alike⟩ | ⟨new, nothing⟩
    · exact (consistent.passed i w before).trans alike.passed.symm
    · -- a new writer: no transaction is its own
      have none_own : s.batchesOf i = [] := by
        refine List.map_eq_nil_iff.mpr (List.filter_eq_nil_iff.mpr fun entry member own => ?_)
        have known := consistent.known entry member
        rw [of_decide_eq_true own] at known
        exact absurd known (Nat.not_lt.mpr new)
      exact none_own.trans nothing.symm
  · exact fun entry member => Nat.lt_of_lt_of_le (consistent.known entry member) more
  · intro entry member w' at_entry
    rcases each _ w' at_entry with ⟨w, before, alike⟩ | ⟨new, -⟩
    · rw [alike.cfg]
      exact consistent.file entry member w before
    · exact absurd (consistent.known entry member) (Nat.not_lt.mpr new)

private theorem batchesOf_pass (s : Recorded σ φ Record) (w : TrackerWriter Record)
    (batch : List Record) (commits : Bool) (j : Nat) :
    (s.pass sqlite names i w batch commits).batchesOf j =
      s.batchesOf j ++ if i = j then [batch] else [] := by
  unfold batchesOf pass
  rw [List.filter_append, List.map_append]
  by_cases same : i = j <;> simp [same]

private theorem committedTo_pass (s : Recorded σ φ Record) (w : TrackerWriter Record)
    (batch : List Record) (commits : Bool) (file : φ) :
    (s.pass sqlite names i w batch commits).committedTo file =
      s.committedTo file ++
        if names w.cfg.dbPath = file ∧ ((s.files file).writeBatch sqlite batch commits).2 then batch
        else [] := by
  unfold committedTo pass
  rw [List.filter_append, List.flatMap_append]
  congr 1
  by_cases same : names w.cfg.dbPath = file
  · subst same
    cases ((s.files (names w.cfg.dbPath)).writeBatch sqlite batch commits).2 <;> simp
  · simp [same]

/-- What the file of the batch has ever held is what was committed to it. -/
theorem ever_pass (documented : sqlite.Documented) (consistent : Consistent sqlite names files s)
    (i : Nat) (w : TrackerWriter Record) (batch : List Record) (commits : Bool) (file : φ) :
    ((s.pass sqlite names i w batch commits).files file).ever.map Prod.snd =
      (sqlite.rows (files file)).map Prod.snd ++
        (s.pass sqlite names i w batch commits).committedTo file := by
  rw [committedTo_pass, ← List.append_assoc, ← consistent.ever file]
  simp only [pass, Function.update_apply]
  split
  next this =>
    subst this
    -- rows are added if and only if the transaction is logged as committed
    rcases TrackerFile.writeBatch_cases documented (s.files (names w.cfg.dbPath)) batch commits with
      ⟨added, values, committed, ever, -⟩ | rolledBack
    · rw [ever, committed, List.map_append, values, if_pos ⟨rfl, rfl⟩]
    · rw [rolledBack, if_neg fun both => Bool.false_ne_true both.2, List.append_nil]
  next apart => rw [if_neg fun both => apart both.1.symm, List.append_nil]

private theorem kept_pass (documented : sqlite.Documented)
    (consistent : Consistent sqlite names files s) (i : Nat) (w : TrackerWriter Record)
    (batch : List Record) (commits : Bool) (file : φ) :
    ((s.pass sqlite names i w batch commits).files file).Kept sqlite := by
  simp only [pass, Function.update_apply]
  split
  · rcases TrackerFile.writeBatch_cases documented (s.files (names w.cfg.dbPath)) batch commits with
      ⟨-, -, -, -, keeps⟩ | rolledBack
    · exact keeps (consistent.kept _)
    · rw [rolledBack]
      exact consistent.kept _
  · exact consistent.kept file

/-- The writer at `i` moves, and passes on the batch it hands over, if it does. -/
theorem consistent_write (documented : sqlite.Documented)
    (consistent : Consistent sqlite names files s)
    (at_i : s.tracking.writers[i]? = some w) {hint hint' : Int64} {arm : Arm}
    (moved : w.advance hint arm = some (hint', w')) (next : tracking.Consistent)
    (same : tracking.writers = s.tracking.writers.set i w') (commits : Bool) :
    Consistent sqlite names files { (match w.handed with
      | none => s
      | some batch => s.pass sqlite names i w batch commits) with tracking } := by
  have moves := moves_of_advance moved
  have sound := (consistent.tracking.fits i w at_i).sound
  have passed := moves.passed sound.unflushed ⟨arm, moved⟩
  have cfg : w'.cfg = w.cfg := moves.frame.1
  cases handed : w.handed with
  | none =>
    rw [handed, Option.toList_none, List.append_nil] at passed
    exact consistent_stay consistent next (writersStay_of_set at_i same ⟨passed, cfg⟩)
  | some batch =>
    rw [handed, Option.toList_some] at passed
    have here := (List.getElem?_eq_some_iff.mp at_i).1
    -- only the writer at `i` has changed
    have each {j : Nat} {w'' : TrackerWriter Record} (at_j : tracking.writers[j]? = some w'') :
        (j = i ∧ w'' = w') ∨ (j ≠ i ∧ s.tracking.writers[j]? = some w'') := by
      rw [same] at at_j
      by_cases mine : i = j
      · subst mine
        rw [List.getElem?_set_self here] at at_j
        exact .inl ⟨rfl, (Option.some.inj at_j).symm⟩
      · rw [List.getElem?_set_ne mine] at at_j
        exact .inr ⟨Ne.symm mine, at_j⟩
    constructor
    case tracking => exact next
    case kept => exact kept_pass documented consistent i w batch commits
    case ever => exact ever_pass documented consistent i w batch commits
    case passed =>
      intro j w'' at_j
      refine (batchesOf_pass (i := i) s w batch commits j).trans ?_
      rcases each at_j with ⟨rfl, rfl⟩ | ⟨apart, before⟩
      · rw [passed, ← consistent.passed _ w at_i, if_pos rfl]
      · rw [← consistent.passed j w'' before, if_neg apart.symm, List.append_nil]
    case known =>
      intro entry member
      rw [same, List.length_set]
      rcases List.mem_append.mp member with old | new
      · exact consistent.known entry old
      · rw [List.mem_singleton.mp new]
        exact here
    case file =>
      intro entry member w'' at_entry
      rcases List.mem_append.mp member with old | new
      · rcases each at_entry with ⟨mine, rfl⟩ | ⟨-, before⟩
        · rw [cfg]
          exact consistent.file entry old w (mine ▸ at_i)
        · exact consistent.file entry old w'' before
      · obtain rfl := List.mem_singleton.mp new
        rcases each at_entry with ⟨-, rfl⟩ | ⟨apart, -⟩
        · rw [cfg]
        · exact absurd rfl apart

private theorem consistent_prune (documented : sqlite.Documented)
    (consistent : Consistent sqlite names files s) (file : φ) (cfg : ConnectionTrackingConfig)
    (nowMillis : Int64) (extent : Sql.Extent) :
    Consistent sqlite names files { s with
      files := Function.update s.files file
        ((s.files file).prune sqlite connectedAt cfg nowMillis extent) } := by
  refine { consistent with kept := fun other => ?_, ever := fun other => ?_ }
  · dsimp only
    rw [Function.update_apply]
    split
    · exact (consistent.kept _).prune documented cfg nowMillis extent
    · exact consistent.kept other
  · dsimp only
    rw [Function.update_apply]
    split
    -- a prune deletes rows, but not from what has ever been there
    next this =>
      subst this
      exact consistent.ever _
    next => exact consistent.ever other

theorem consistent_step (documented : sqlite.Documented) (s : Recorded σ φ Record)
    (event : RecordedEvent Record) (s' : Recorded σ φ Record)
    (consistent : Consistent sqlite names files s)
    (stepped : step sqlite names connectedAt s event = some s') :
    Consistent sqlite names files s' := by
  cases event with
  | track event commits =>
    obtain ⟨tracking, moved, same⟩ := Option.bind_eq_some_iff.mp stepped
    have next := Tracking.consistent_step _ _ _ consistent.tracking moved
    cases event with
    | write i arm =>
      obtain ⟨w, at_i, rest⟩ := Option.bind_eq_some_iff.mp moved
      obtain ⟨⟨hint, w'⟩, advanced, set⟩ := Option.bind_eq_some_iff.mp rest
      cases set
      simp only [at_i, Option.some.injEq] at same
      subst same
      exact consistent_write documented consistent at_i advanced next rfl commits
    | _ =>
      cases same
      exact consistent_stay consistent next (writersStay_of_step moved (by rintro _ _ ⟨⟩))
  | prune i nowMillis extent =>
    obtain ⟨w, at_i, rest⟩ := Option.bind_eq_some_iff.mp stepped
    split at rest
    · cases rest
      exact consistent_prune documented consistent _ w.cfg nowMillis extent
    · cases rest

/-- What the database files hold of the records that were accepted. -/
structure Durable (sqlite : Sql.Engine σ Record NoChildren) (names : Text → φ) (files : φ → σ)
    (s : Recorded σ φ Record) : Prop where
  /-- the records a writer accepted were each in one transaction, in the order they were sent -/
  once : ∀ i w, s.tracking.writers[i]? = some w → (s.batchesOf i).flatten <+: w.accepted
  all : ∀ i w, s.tracking.writers[i]? = some w → w.joined → (s.batchesOf i).flatten = w.accepted
  /-- and those of the committed transactions on a file, no others, came into its table -/
  ever : ∀ file, (s.files file).ever.map Prod.snd =
    (sqlite.rows (files file)).map Prod.snd ++ s.committedTo file
  file : ∀ entry ∈ s.log, ∀ w, s.tracking.writers[entry.writer]? = some w →
    entry.file = names w.cfg.dbPath
  /-- where they stay until a prune has a reason to delete them -/
  kept : ∀ file, (s.files file).Kept sqlite

/-- However the calls of the tracker, the steps of its writers, the outcomes of their
transactions and their prunes follow each other, over restarts with the same or other files,
no record that was committed is lost but by a prune that had a reason to delete it. -/
theorem records_durable_always (documented : sqlite.Documented) (files : φ → σ)
    (events : List (RecordedEvent Record)) :
    Always (step sqlite names connectedAt) (Durable sqlite names files) (start sqlite files)
      events := by
  have consistent : Always (step sqlite names connectedAt) (Consistent sqlite names files)
      (start sqlite files) events :=
    always_of_keep (consistent_step documented) events (consistent_start files)
  refine consistent.imp fun s holds => ?_
  have accounted := Tracking.accounted_of_consistent holds.tracking
  constructor
  case once =>
    intro i w at_i
    rw [holds.passed i w at_i]
    exact accounted.inOrder w (List.mem_of_getElem? at_i)
  case all =>
    intro i w at_i joined
    rw [holds.passed i w at_i]
    exact accounted.complete w (List.mem_of_getElem? at_i) joined
  case ever => exact holds.ever
  case file => exact holds.file
  case kept => exact holds.kept

/-- Paths that lead to one file if they differ by a leading `./`. -/
def withoutDot (path : Text) : Text := if path.take 2 = "./".toList then path.drop 2 else path

/-- A record is written, the path of the database is spelled otherwise, a second one is written
by the next writer, and a prune leaves one. -/
def twoSpellings : List (RecordedEvent Int64) :=
  let cfg : ConnectionTrackingConfig := { enabled := true, maxRecords := 1 }
  let calls (i : Nat) (rec : Int64) : List (TrackingEvent Int64) :=
    [.record rec, .trySend, .count] ++ List.replicate 4 (.write i .records)
  let events : List (TrackingEvent Int64) := List.flatten
    [[.applyConfig cfg], List.replicate 6 (.proceed true), calls 0 1000,
      [.applyConfig { cfg with dbPath := "./data/connections.db".toList }],
      List.replicate 3 (.proceed true), [.write 0 .shutdown, .write 0 .records, .write 0 .records],
      List.replicate 6 (.proceed true), calls 1 2000]
  events.map (.track · true) ++ [.prune 1 3000 .complete]

theorem records_durable_over_spellings :
    Always (step Sql.memory withoutDot id) (Durable Sql.memory withoutDot fun _ => .empty)
      (start Sql.memory fun _ => .empty) twoSpellings ∧
    (run (step Sql.memory withoutDot id) (start Sql.memory fun _ => .empty) twoSpellings).map
        (fun s =>
          let file := s.files "data/connections.db".toList
          (file.db.rows, file.ever, s.log.map Transaction.committed)) =
      some ([(2, 2000)], [(1, 1000), (2, 2000)], [true, true]) :=
  ⟨records_durable_always Sql.memory_documented _ twoSpellings, by rfl⟩

end Recorded

end MCGate
