import MCGate.Config.Types
import MCGate.Lib.Threads

/-!
# Connection tracking

`record` sends to a bounded channel while it holds the lock of `inner`. A writer thread takes
the records out of the channel and passes them to `write_batch`; `stop_internal` takes
`inner`, tells the writer to stop and waits for it. Calls of `apply_config` and `shutdown` do
not overlap, so one of them is under way at a time. What is in a record is of no interest
here, and pruning changes nothing but the database.
-/
namespace MCGate

open Config Machine

variable {Record : Type}

namespace TrackerWriter

/-- Where the writer thread is in `writer_loop`, with what it has taken out of the channel. -/
inductive Phase (Record : Type) where
  | selecting
  | filling (batch : List Record)
  | writing (batch : List Record)
  | subtracting (n : Nat)
  | draining (remaining : List Record)
  | flushing (remaining : List Record)
  | finished

/-- The arms of `select!`. -/
inductive Arm where
  | records
  | shutdown
  | timeout

/-- What the thread has taken out of the channel and not passed on yet. -/
def Phase.inHand : Phase Record → List Record
  | .filling batch => batch
  | .writing batch => batch
  | .draining remaining => remaining
  | .flushing remaining => remaining
  | _ => []

end TrackerWriter

open TrackerWriter

/-- A writer thread with its two channels: the records that are queued, whether their sender
is still there, and whether the shutdown channel has a message. Only the statements read the
last five fields: what `record` found tracking on for, what `try_send` accepted, the batches
passed to `write_batch` in the loop and in the final flush, and whether the `stop_internal`
that ends the thread has returned. -/
structure TrackerWriter (Record : Type) where
  cfg : ConnectionTrackingConfig
  queue : List Record
  connected : Bool
  signalled : Bool
  phase : Phase Record
  offered : List Record
  accepted : List Record
  written : List (List Record)
  flushed : List (List Record)
  joined : Bool

namespace TrackerWriter

/-- `cfg.batch_size.max(1) as usize` -/
def batchLimit (w : TrackerWriter Record) : Nat := (max w.cfg.batchSize.toInt 1).toNat

/-- `cfg.queue_capacity.max(1) as usize` -/
def capacity (w : TrackerWriter Record) : Nat := (max w.cfg.queueCapacity.toInt 1).toNat

def spawned (cfg : ConnectionTrackingConfig) : TrackerWriter Record :=
  ⟨cfg, [], true, false, .selecting, [], [], [], [], false⟩

/-- `try_send` fails if the channel is full or the thread, and with it the receiver, is gone. -/
def trySend (w : TrackerWriter Record) (rec : Record) : Option (TrackerWriter Record) :=
  match w.phase with
  | .finished => none
  | _ =>
    if w.queue.length < w.capacity then
      some { w with queue := w.queue ++ [rec], accepted := w.accepted ++ [rec] }
    else none

/-- A step of `writer_loop`, which also changes `queued_hint`. -/
def advance (hint : Int64) (w : TrackerWriter Record) (arm : Arm) :
    Option (Int64 × TrackerWriter Record) :=
  match w.phase with
  | .selecting =>
    match arm with
    | .records =>
      match w.queue with
      | rec :: queue => some (hint, { w with queue, phase := .filling [rec] })
      | [] => if w.connected then none else some (hint, { w with phase := .draining [] })
    | .shutdown =>
      if w.signalled then some (hint, { w with signalled := false, phase := .draining [] })
      else none
    | .timeout =>
      -- only when neither channel is ready
      if w.queue.isEmpty ∧ w.connected ∧ ¬ w.signalled then some (hint, w) else none
  | .filling batch =>
    if batch.length < w.batchLimit then
      match w.queue with
      | rec :: queue => some (hint, { w with queue, phase := .filling (batch ++ [rec]) })
      | [] => some (hint, { w with phase := .writing batch })
    else some (hint, { w with phase := .writing batch })
  | .writing batch =>
    some (hint, { w with written := w.written ++ [batch], phase := .subtracting batch.length })
  | .subtracting n => some (hint - Int64.ofNat n, { w with phase := .selecting })
  | .draining remaining =>
    match w.queue with
    | rec :: queue => some (hint, { w with queue, phase := .draining (remaining ++ [rec]) })
    | [] => some (hint, { w with phase := .flushing remaining })
  | .flushing remaining =>
    if remaining.isEmpty then some (hint, { w with phase := .finished })
    else some (hint, { w with flushed := w.flushed ++ [remaining], phase := .finished })
  | .finished => none

/-! ### A writer by itself -/

/-- What a writer keeps: nothing it was sent is lost or passed on twice or out of order, the
batches of the loop are small enough, and after the final flush nothing is left. -/
structure Sound (w : TrackerWriter Record) : Prop where
  conserved : (w.written ++ w.flushed).flatten ++ w.phase.inHand ++ w.queue = w.accepted
  small : ∀ batch ∈ w.written, batch.length ≤ w.batchLimit
  filling : ∀ batch, w.phase = .filling batch ∨ w.phase = .writing batch →
    batch.length ≤ w.batchLimit
  unflushed : w.phase ≠ .finished → w.flushed = []
  drained : (∃ remaining, w.phase = .flushing remaining) ∨ w.phase = .finished → w.queue = []

/-- The writer has not been told to stop, so it is in its loop. -/
structure Serving (w : TrackerWriter Record) : Prop where
  connected : w.connected
  unsignalled : w.signalled = false
  phase : w.phase = .selecting ∨ (∃ batch, w.phase = .filling batch) ∨
    (∃ batch, w.phase = .writing batch) ∨ ∃ n, w.phase = .subtracting n

private theorem batchLimit_pos (w : TrackerWriter Record) : 1 ≤ w.batchLimit := by
  unfold batchLimit
  omega

variable {w w' : TrackerWriter Record} {hint hint' : Int64} {arm : Arm}

/-- The moves of `writer_loop`. -/
inductive Moves (hint : Int64) (w : TrackerWriter Record) :
    Int64 → TrackerWriter Record → Prop
  | take {rec : Record} {queue : List Record} : w.phase = .selecting → w.queue = rec :: queue →
      Moves hint w hint { w with queue, phase := .filling [rec] }
  | leave (signalled : Bool) : w.phase = .selecting → w.connected = false ∨ w.signalled →
      Moves hint w hint { w with signalled, phase := .draining [] }
  | wait : w.phase = .selecting → w.queue = [] → w.connected → w.signalled = false →
      Moves hint w hint w
  | fill {batch : List Record} {rec : Record} {queue : List Record} : w.phase = .filling batch →
      batch.length < w.batchLimit → w.queue = rec :: queue →
      Moves hint w hint { w with queue, phase := .filling (batch ++ [rec]) }
  | filled {batch : List Record} : w.phase = .filling batch →
      Moves hint w hint { w with phase := .writing batch }
  | write {batch : List Record} : w.phase = .writing batch →
      Moves hint w hint
        { w with written := w.written ++ [batch], phase := .subtracting batch.length }
  | subtract {n : Nat} : w.phase = .subtracting n →
      Moves hint w (hint - Int64.ofNat n) { w with phase := .selecting }
  | drain {remaining : List Record} {rec : Record} {queue : List Record} :
      w.phase = .draining remaining → w.queue = rec :: queue →
      Moves hint w hint { w with queue, phase := .draining (remaining ++ [rec]) }
  | drained {remaining : List Record} : w.phase = .draining remaining → w.queue = [] →
      Moves hint w hint { w with phase := .flushing remaining }
  | flush {remaining : List Record} (flushed : List (List Record)) :
      w.phase = .flushing remaining → flushed.flatten = remaining →
      Moves hint w hint { w with flushed := w.flushed ++ flushed, phase := .finished }

theorem moves_of_advance (moved : w.advance hint arm = some (hint', w')) :
    Moves hint w hint' w' := by
  unfold advance at moved
  split at moved
  -- the arms of `select!`: a record or a dropped sender, the stop signal, and the timeout
  next phase =>
    split at moved
    · split at moved
      next rec queue queued =>
        cases moved
        exact .take phase queued
      next =>
        split at moved
        · cases moved
        next gone =>
          cases moved
          exact .leave w.signalled phase (.inl (Bool.eq_false_iff.mpr gone))
    · split at moved
      next signalled =>
        cases moved
        exact .leave false phase (.inr signalled)
      next => cases moved
    · split at moved
      next idle =>
        cases moved
        exact .wait phase (List.isEmpty_iff.mp idle.1) idle.2.1 (Bool.eq_false_iff.mpr idle.2.2)
      next => cases moved
  next batch phase =>
    split at moved
    next room =>
      split at moved
      next rec queue queued =>
        cases moved
        exact .fill phase room queued
      next =>
        cases moved
        exact .filled phase
    next =>
      cases moved
      exact .filled phase
  next batch phase =>
    cases moved
    exact .write phase
  next n phase =>
    cases moved
    exact .subtract phase
  -- at the end the queue is taken record by record, without a limit on the batch
  next remaining phase =>
    split at moved
    next rec queue queued =>
      cases moved
      exact .drain phase queued
    next queued =>
      cases moved
      exact .drained phase queued
  next remaining phase =>
    split at moved
    next empty =>
      cases moved
      -- nothing is left: the last flush is one of an empty batch
      have step : Moves hint w hint { w with flushed := w.flushed ++ [], phase := .finished } :=
        .flush [] phase (List.isEmpty_iff.mp empty).symm
      rwa [List.append_nil] at step
    next =>
      cases moved
      exact .flush [remaining] phase (by simp)
  next => cases moved

/-- A step of the thread leaves alone what others set. -/
theorem Moves.frame (moves : Moves hint w hint' w') :
    w'.cfg = w.cfg ∧ w'.connected = w.connected ∧ w'.offered = w.offered ∧
      w'.accepted = w.accepted ∧ w'.joined = w.joined := by
  cases moves <;> exact ⟨rfl, rfl, rfl, rfl, rfl⟩

theorem Moves.unfinished (moves : Moves hint w hint' w') : w.phase ≠ .finished := by
  intro finished
  cases moves <;> simp_all

theorem Moves.sound (moves : Moves hint w hint' w') (sound : Sound w) : Sound w' := by
  obtain ⟨conserved, small, filling, unflushed, drained⟩ := sound
  -- each move passes records on from one place to the next; none appears or goes missing
  cases moves with
  | take phase queued =>
    refine ⟨?_, small, ?_, fun _ => unflushed (by simp [phase]), by simp⟩
    · simpa [phase, queued, Phase.inHand] using conserved
    · rintro batch (same | same)
      · cases same
        exact batchLimit_pos w
      · cases same
  | leave signalled phase _ =>
    refine ⟨?_, small, by simp, fun _ => unflushed (by simp [phase]), by simp⟩
    simpa [phase, Phase.inHand] using conserved
  | wait => exact ⟨conserved, small, filling, unflushed, drained⟩
  | @fill batch rec queue phase room queued =>
    refine ⟨?_, small, ?_, fun _ => unflushed (by simp [phase]), by simp⟩
    · simpa [phase, queued, Phase.inHand] using conserved
    · rintro batch' (same | same)
      · cases same
        rw [List.length_append]
        exact room
      · cases same
  | @filled batch phase =>
    refine ⟨?_, small, ?_, fun _ => unflushed (by simp [phase]), by simp⟩
    · simpa [phase, Phase.inHand] using conserved
    · rintro batch' (same | same)
      · cases same
      · cases same
        exact filling batch (.inl phase)
  | @write batch phase =>
    have none := unflushed (by simp [phase])
    refine ⟨?_, ?_, by simp, fun _ => none, by simp⟩
    · simpa [phase, none, Phase.inHand] using conserved
    · intro batch' member
      rcases List.mem_append.mp member with member | member
      · exact small batch' member
      · rw [List.mem_singleton.mp member]
        exact filling batch (.inr phase)
  | subtract phase =>
    refine ⟨?_, small, by simp, fun _ => unflushed (by simp [phase]), by simp⟩
    simpa [phase, Phase.inHand] using conserved
  | drain phase queued =>
    refine ⟨?_, small, by simp, fun _ => unflushed (by simp [phase]), by simp⟩
    simpa [phase, queued, Phase.inHand] using conserved
  | drained phase queued =>
    refine ⟨?_, small, by simp, fun _ => unflushed (by simp [phase]), fun _ => queued⟩
    simpa [phase, Phase.inHand] using conserved
  | flush flushed phase same =>
    have none := unflushed (by simp [phase])
    have queued := drained (.inl ⟨_, phase⟩)
    refine ⟨?_, small, by simp, by simp, fun _ => queued⟩
    simpa [phase, none, queued, same, Phase.inHand] using conserved

theorem Moves.serving (moves : Moves hint w hint' w') (serving : Serving w) : Serving w' := by
  obtain ⟨connected, unsignalled, phase⟩ := serving
  -- as long as nobody has told it to stop, it does not get past its loop
  cases moves with
  | leave signalled _ told =>
    rcases told with told | told
    · rw [connected] at told
      cases told
    · rw [unsignalled] at told
      cases told
  | wait => exact ⟨connected, unsignalled, phase⟩
  | take => exact ⟨connected, unsignalled, by simp⟩
  | fill => exact ⟨connected, unsignalled, by simp⟩
  | filled => exact ⟨connected, unsignalled, by simp⟩
  | write => exact ⟨connected, unsignalled, by simp⟩
  | subtract => exact ⟨connected, unsignalled, by simp⟩
  | drain past => simp [past] at phase
  | drained past => simp [past] at phase
  | flush _ past => simp [past] at phase

/-- What was sent while the writer serves is queued behind the rest. -/
theorem Sound.push (sound : Sound w) (serving : Serving w) (rec : Record) :
    Sound { w with queue := w.queue ++ [rec], accepted := w.accepted ++ [rec] } where
  conserved := by
    rw [← sound.conserved]
    simp
  small := sound.small
  filling := sound.filling
  unflushed := sound.unflushed
  drained := by
    have phase := serving.phase
    rintro (⟨remaining, past⟩ | past) <;> dsimp only at past <;> simp [past] at phase

theorem trySend_eq (serving : Serving w) (rec : Record) :
    w.trySend rec =
      if w.queue.length < w.capacity then
        some { w with queue := w.queue ++ [rec], accepted := w.accepted ++ [rec] }
      else none := by
  unfold trySend
  split
  next finished =>
    have phase := serving.phase
    simp [finished] at phase
  next => rfl

/-- How many steps the writer has left once its channel is closed, at most. -/
def work (w : TrackerWriter Record) : Nat :=
  -- a record that is taken costs a round of the loop at most
  5 * w.queue.length +
    match w.phase with
    | .filling _ => 6
    | .writing _ => 5
    | .subtracting _ => 4
    | .selecting => 3
    | .draining _ => 2
    | .flushing _ => 1
    | .finished => 0

theorem Moves.work_lt (moves : Moves hint w hint' w') (closed : w.connected = false) :
    w'.work < w.work := by
  cases moves with
  | wait _ _ connected =>
    rw [closed] at connected
    cases connected
  | take phase queued => simp [work, phase, queued]; omega
  | leave _ phase => simp [work, phase]
  | fill phase _ queued => simp [work, phase, queued]
  | filled phase => simp [work, phase]
  | write phase => simp [work, phase]
  | subtract phase => simp [work, phase]
  | drain phase queued => simp [work, phase, queued]
  | drained phase => simp [work, phase]
  | flush _ phase => simp [work, phase]

/-- A writer whose channel is closed can go on until it has finished. -/
theorem advance_isSome (hint : Int64) (closed : w.connected = false)
    (unfinished : w.phase ≠ .finished) : (w.advance hint .records).isSome := by
  unfold advance
  split
  next =>
    dsimp only
    split
    · rfl
    · rw [closed]
      rfl
  next =>
    split
    · split <;> rfl
    · rfl
  next => rfl
  next => rfl
  next => split <;> rfl
  next => split <;> rfl
  next finished => exact absurd finished unfinished

end TrackerWriter

/-- The fields of the tracker; `inner` is the writer that it leads to. -/
structure ConnectionTracker where
  inner : Option Nat
  currentConfig : ConnectionTrackingConfig
  droppedSinceStart : UInt64
  queuedHint : Int64

namespace ConnectionTracker

def default : ConnectionTracker := ⟨none, {}, 0, 0⟩

end ConnectionTracker

namespace Tracking

/-- The call of `record` that holds the lock of `inner`: before `try_send`, and after it. -/
inductive Recording (Record : Type) where
  | sending (i : Nat) (rec : Record)
  | dropped
  | queued

/-- Where the call of `apply_config` or `shutdown` is; `next` is the config that
`apply_config` goes on with. -/
inductive Control where
  | idle
  | taking (next : Option ConnectionTrackingConfig)
  | signalling (i : Nat) (next : Option ConnectionTrackingConfig)
  | dropping (i : Nat) (next : Option ConnectionTrackingConfig)
  | joining (i : Nat) (next : Option ConnectionTrackingConfig)
  /-- `stop_internal` has returned -/
  | stopped (next : Option ConnectionTrackingConfig)
  | resettingDropped (cfg : ConnectionTrackingConfig)
  | resettingQueued (cfg : ConnectionTrackingConfig)
  | opening (cfg : ConnectionTrackingConfig)
  | publishing (i : Nat)

/-- The writer that only this call knows. -/
def Control.writer : Control → Option Nat
  | .signalling i _ => some i
  | .dropping i _ => some i
  | .joining i _ => some i
  | .publishing i => some i
  | _ => none

end Tracking

/-- The tracker, the calls under way and all writers so far. -/
structure Tracking (Record : Type) where
  tracker : ConnectionTracker
  recording : Option (Tracking.Recording Record)
  control : Tracking.Control
  writers : List (TrackerWriter Record)

inductive TrackingEvent (Record : Type) where
  /-- a call of `record` gets the lock -/
  | record (rec : Record)
  | trySend
  /-- the call counts the outcome and returns -/
  | count
  | applyConfig (cfg : ConnectionTrackingConfig)
  | shutdown
  /-- the call of `apply_config` or `shutdown` takes its next step; `opened` is whether the
  database can be opened -/
  | proceed (opened : Bool)
  | write (i : Nat) (arm : TrackerWriter.Arm)

namespace Tracking

def start : Tracking Record := ⟨.default, none, .idle, []⟩

def setWriter (s : Tracking Record) (i : Nat) (w : TrackerWriter Record) : Tracking Record :=
  { s with writers := s.writers.set i w }

/-- The next step of `apply_config` or `shutdown`. -/
def proceed (s : Tracking Record) (opened : Bool) : Option (Tracking Record) :=
  match s.control with
  | .idle => none
  | .taking next =>
    if s.recording.isSome then none
    else
      let control : Control :=
        match s.tracker.inner with
        | none => .stopped next
        | some i => .signalling i next
      some { s with tracker.inner := none, control }
  | .signalling i next => do
    let w ← s.writers[i]?
    some { s.setWriter i { w with signalled := true } with control := .dropping i next }
  | .dropping i next => do
    let w ← s.writers[i]?
    some { s.setWriter i { w with connected := false } with control := .joining i next }
  | .joining i next => do
    let w ← s.writers[i]?
    match w.phase with
    | .finished => some { s.setWriter i { w with joined := true } with control := .stopped next }
    | _ => none
  | .stopped none => some { s with control := .idle }
  | .stopped (some cfg) =>
    some { s with
      tracker.currentConfig := cfg
      control := if cfg.enabled then .resettingDropped cfg else .idle }
  | .resettingDropped cfg =>
    some { s with tracker.droppedSinceStart := 0, control := .resettingQueued cfg }
  | .resettingQueued cfg => some { s with tracker.queuedHint := 0, control := .opening cfg }
  | .opening cfg =>
    if opened then
      some { s with
        writers := s.writers ++ [.spawned cfg]
        control := .publishing s.writers.length }
    else some { s with control := .idle }
  | .publishing i =>
    if s.recording.isSome then none
    else some { s with tracker.inner := some i, control := .idle }

def step (s : Tracking Record) : TrackingEvent Record → Option (Tracking Record)
  | .record rec =>
    if s.recording.isSome then none
    else
      match s.tracker.inner with
      | none => some s
      | some i => do
        let w ← s.writers[i]?
        some { s.setWriter i { w with offered := w.offered ++ [rec] } with
          recording := some (.sending i rec) }
  | .trySend =>
    match s.recording with
    | some (.sending i rec) => do
      let w ← s.writers[i]?
      match w.trySend rec with
      | some w => some { s.setWriter i w with recording := some .queued }
      | none => some { s with recording := some .dropped }
    | _ => none
  | .count =>
    match s.recording with
    | some .dropped =>
      some { s with
        tracker.droppedSinceStart := s.tracker.droppedSinceStart + 1
        recording := none }
    | some .queued =>
      some { s with tracker.queuedHint := s.tracker.queuedHint + 1, recording := none }
    | _ => none
  | .applyConfig cfg =>
    match s.control with
    | .idle =>
      if s.tracker.currentConfig = cfg then some s
      else some { s with control := .taking (some cfg) }
    | _ => none
  | .shutdown =>
    match s.control with
    | .idle => some { s with control := .taking none }
    | _ => none
  | .proceed opened => s.proceed opened
  | .write i arm => do
    let w ← s.writers[i]?
    let (hint, w) ← w.advance s.tracker.queuedHint arm
    some { s.setWriter i w with tracker.queuedHint := hint }

end Tracking

end MCGate
