import MCGate.State.ConnectionTracker

/-!
# Every record is accounted for

The writers by themselves lose nothing (`TrackerWriter.Sound`). What is left is who may still
send to a writer: `record` finds one in `inner` only while it serves, and `stop_internal` has
taken it out before the writer hears of it.
-/
namespace MCGate

open Config Machine TrackerWriter

variable {Record : Type}

namespace Tracking

/-- The record of a call that has not reached `try_send`. -/
def pending : Option (Recording Record) → List Record
  | some (.sending _ rec) => [rec]
  | _ => []

/-- How many calls are under way that may still count their record as dropped. -/
def uncounted : Option (Recording Record) → Nat
  | some (.sending _ _) => 1
  | some .dropped => 1
  | _ => 0

/-- The writer is the one that the tracker, or the call that starts or stops it, has. -/
def Tracks (s : Tracking Record) (i : Nat) : Prop :=
  s.tracker.inner = some i ∨ s.control.writer = some i

/-- Of the records that `record` was called with while the writer was there, those that were
not accepted are counted as dropped, but for the one of the call under way. -/
structure Counted (s : Tracking Record) (w : TrackerWriter Record) : Prop where
  accepted : (w.accepted ++ pending s.recording).Sublist w.offered
  dropped : UInt64.ofNat w.offered.length =
    s.tracker.droppedSinceStart + UInt64.ofNat (w.accepted.length + uncounted s.recording)

structure Fits (s : Tracking Record) (i : Nat) (w : TrackerWriter Record) : Prop where
  sound : w.Sound
  serving : s.tracker.inner = some i ∨ s.control = .publishing i → w.Serving
  closed : ∀ next, s.control = .joining i next → w.connected = false
  finished : w.joined → w.phase = .finished
  owned : w.joined ∨ Tracks s i
  counted : Tracks s i → Counted s w

structure Consistent (s : Tracking Record) : Prop where
  fits : ∀ i w, s.writers[i]? = some w → Fits s i w
  there : ∀ i, Tracks s i → i < s.writers.length
  inner : s.tracker.inner.isSome → s.control = .idle ∨ ∃ next, s.control = .taking next
  recording : s.recording.isSome → s.tracker.inner.isSome
  sending : ∀ i rec, s.recording = some (.sending i rec) → s.tracker.inner = some i
  reset : ∀ cfg, s.control = .resettingQueued cfg ∨ s.control = .opening cfg →
    s.tracker.droppedSinceStart = 0

theorem consistent_start : Consistent (start : Tracking Record) where
  fits := by simp [start]
  there := by simp [start, Tracks, ConnectionTracker.default, Control.writer]
  inner := by simp [start]
  recording := by simp [start]
  sending := by simp [start]
  reset := by simp [start]

variable {s s' : Tracking Record}

/-- While the tracker has a writer, the call of `apply_config` or `shutdown` has none. -/
theorem Consistent.writer_eq_none (consistent : Consistent s)
    (on : s.tracker.inner.isSome) : s.control.writer = none := by
  rcases consistent.inner on with idle | ⟨next, taking⟩
  · rw [idle]
    rfl
  · rw [taking]
    rfl

/-- Then only that writer is tracked. -/
theorem Consistent.tracks_iff (consistent : Consistent s) {i j : Nat}
    (inner : s.tracker.inner = some i) : Tracks s j ↔ j = i := by
  rw [Tracks, inner, consistent.writer_eq_none (by rw [inner]; rfl)]
  simp [eq_comm]

/-- A step that changes neither what the tracker nor what the call has. -/
theorem Fits.of_same {i : Nat} {w : TrackerWriter Record} (fits : Fits s i w)
    (inner : s'.tracker.inner = s.tracker.inner) (control : s'.control = s.control)
    (counted : Tracks s i → Counted s' w) : Fits s' i w where
  sound := fits.sound
  serving := by
    rw [inner, control]
    exact fits.serving
  closed := by
    rw [control]
    exact fits.closed
  finished := fits.finished
  owned := by
    rw [Tracks, inner, control]
    exact fits.owned
  counted := by
    rw [Tracks, inner, control]
    exact counted

private theorem consistent_record (consistent : Consistent s) {i : Nat} {w : TrackerWriter Record}
    (free : s.recording = none) (inner : s.tracker.inner = some i) (at_i : s.writers[i]? = some w)
    (rec : Record) :
    Consistent { s.setWriter i { w with offered := w.offered ++ [rec] } with
      recording := some (.sending i rec) } where
  fits := by
    have fits := consistent.fits i w at_i
    refine Threads.forall_getElem?_set ?_ fun j other apart at_j => ?_
    · obtain ⟨accepted, dropped⟩ := fits.counted (.inl inner)
      rw [free] at accepted dropped
      refine ⟨⟨fits.sound.1, fits.sound.2, fits.sound.3, fits.sound.4, fits.sound.5⟩,
        fun on => ⟨(fits.serving on).1, (fits.serving on).2, (fits.serving on).3⟩,
        fits.closed, fits.finished, fits.owned, fun _ => ⟨?_, ?_⟩⟩
      · simpa [pending] using accepted
      · simp only [uncounted, Nat.add_zero] at dropped ⊢
        rw [List.length_append, List.length_singleton, UInt64.ofNat_add, dropped, UInt64.ofNat_add,
          UInt64.add_assoc]
        rfl
    · refine (consistent.fits j other at_j).of_same rfl rfl fun tracks => ?_
      exact absurd ((consistent.tracks_iff inner).mp tracks) apart
  there := by
    intro j tracks
    simp only [setWriter, List.length_set]
    exact consistent.there j tracks
  inner := consistent.inner
  recording := fun _ => by
    show s.tracker.inner.isSome
    rw [inner]
    rfl
  sending := by
    rintro j rec' same
    cases same
    exact inner
  reset := consistent.reset

private theorem consistent_accepted (consistent : Consistent s) {i : Nat} {w : TrackerWriter Record}
    {rec : Record} (sending : s.recording = some (.sending i rec))
    (at_i : s.writers[i]? = some w) :
    Consistent
      { s.setWriter i { w with queue := w.queue ++ [rec], accepted := w.accepted ++ [rec] } with
        recording := some .queued } where
  fits := by
    have inner := consistent.sending i rec sending
    have fits := consistent.fits i w at_i
    have serving := fits.serving (.inl inner)
    refine Threads.forall_getElem?_set ?_ fun j other apart at_j => ?_
    · obtain ⟨accepted, dropped⟩ := fits.counted (.inl inner)
      rw [sending] at accepted dropped
      refine ⟨fits.sound.push serving rec, fun _ => ⟨serving.1, serving.2, serving.3⟩,
        fits.closed, fits.finished, fits.owned, fun _ => ⟨?_, ?_⟩⟩
      · simpa [pending] using accepted
      · simpa [uncounted, setWriter] using dropped
    · refine (consistent.fits j other at_j).of_same rfl rfl fun tracks => ?_
      exact absurd ((consistent.tracks_iff inner).mp tracks) apart
  there := by
    intro j tracks
    simp only [setWriter, List.length_set]
    exact consistent.there j tracks
  inner := consistent.inner
  recording := fun _ => consistent.recording (by rw [sending]; rfl)
  sending := by
    intro j rec' same
    cases same
  reset := consistent.reset

/-- A call of `record` goes on without a change to any writer. -/
theorem consistent_recording (consistent : Consistent s) {recording : Option (Recording Record)}
    {dropped : UInt64} {hint : Int64} (under : s.recording.isSome)
    (unsent : ∀ i rec, recording ≠ some (.sending i rec))
    (counted : ∀ w, Counted s w →
      Counted { s with
        tracker := ⟨s.tracker.inner, s.tracker.currentConfig, dropped, hint⟩, recording } w) :
    Consistent { s with
      tracker := ⟨s.tracker.inner, s.tracker.currentConfig, dropped, hint⟩, recording } where
  fits := fun i w at_i =>
    (consistent.fits i w at_i).of_same rfl rfl fun tracks =>
      counted w ((consistent.fits i w at_i).counted tracks)
  there := consistent.there
  inner := consistent.inner
  recording := fun _ => consistent.recording under
  sending := fun i rec same => absurd same (unsent i rec)
  reset := by
    intro cfg starting
    rcases consistent.inner (consistent.recording under) with idle | ⟨next, taking⟩
    · simp [idle] at starting
    · simp [taking] at starting

theorem consistent_write (consistent : Consistent s) {i : Nat} {w w' : TrackerWriter Record}
    {hint : Int64} (at_i : s.writers[i]? = some w)
    (moves : Moves s.tracker.queuedHint w hint w') :
    Consistent { s.setWriter i w' with tracker.queuedHint := hint } where
  fits := by
    have fits := consistent.fits i w at_i
    obtain ⟨-, connected, offered, accepted, joined⟩ := moves.frame
    refine Threads.forall_getElem?_set ?_ fun j other apart at_j => ?_
    · refine ⟨moves.sound fits.sound, fun on => moves.serving (fits.serving on), ?_, ?_, ?_, ?_⟩
      · rw [connected]
        exact fits.closed
      · rw [joined]
        exact fun ended => absurd (fits.finished ended) moves.unfinished
      · rw [joined]
        exact fits.owned
      · intro tracks
        obtain ⟨subset, dropped⟩ := fits.counted tracks
        rw [← offered, ← accepted] at subset dropped
        exact ⟨subset, dropped⟩
    · exact (consistent.fits j other at_j).of_same rfl rfl fun tracks =>
        ⟨((consistent.fits j other at_j).counted tracks).1,
          ((consistent.fits j other at_j).counted tracks).2⟩
  there := by
    intro j tracks
    simp only [setWriter, List.length_set]
    exact consistent.there j tracks
  inner := consistent.inner
  recording := consistent.recording
  sending := consistent.sending
  reset := consistent.reset

theorem Consistent.free (consistent : Consistent s) (off : s.tracker.inner = none) :
    s.recording = none := by
  cases under : s.recording with
  | none => rfl
  | some recording =>
    have on := consistent.recording (by rw [under]; rfl)
    rw [off] at on
    cases on

/-- Tracking is off, and the call takes a step that changes no writer. -/
theorem consistent_control (consistent : Consistent s) {tracker : ConnectionTracker}
    {control : Control} (off : tracker.inner = none) (free : s.recording = none)
    (tracks : ∀ i, control.writer = some i ↔ Tracks s i)
    (joining : ∀ i next, control ≠ .joining i next) (publishing : ∀ i, control ≠ .publishing i)
    (dropped : (∃ i, Tracks s i) → tracker.droppedSinceStart = s.tracker.droppedSinceStart)
    (reset : ∀ cfg, control = .resettingQueued cfg ∨ control = .opening cfg →
      tracker.droppedSinceStart = 0) :
    Consistent { s with tracker, control } where
  fits := by
    intro i w at_i
    have fits := consistent.fits i w at_i
    have same : Tracks { s with tracker, control } i ↔ Tracks s i := by
      simp only [Tracks, off, tracks, reduceCtorEq, false_or]
    refine ⟨fits.sound, ?_, fun next same => absurd same (joining i next), fits.finished, ?_, ?_⟩
    · rintro (on | same)
      · rw [off] at on
        cases on
      · exact absurd same (publishing i)
    · rw [same]
      exact fits.owned
    · rw [same]
      intro tracked
      obtain ⟨accepted, count⟩ := fits.counted tracked
      refine ⟨accepted, ?_⟩
      rw [dropped ⟨i, tracked⟩]
      exact count
  there := by
    rintro i (on | known)
    · rw [off] at on
      cases on
    · exact consistent.there i ((tracks i).mp known)
  inner := by simp [off]
  recording := by simp [free]
  sending := by simp [free]
  reset := reset

theorem Consistent.off (consistent : Consistent s) (busy : s.control ≠ .idle)
    (past : ∀ next, s.control ≠ .taking next) : s.tracker.inner = none := by
  cases inner : s.tracker.inner with
  | none => rfl
  | some i =>
    rcases consistent.inner (by rw [inner]; rfl) with idle | ⟨next, taking⟩
    · exact absurd idle busy
    · exact absurd taking (past next)

/-- A call of `apply_config` or `shutdown` begins. -/
theorem consistent_begin (consistent : Consistent s) (idle : s.control = .idle)
    (next : Option ConnectionTrackingConfig) :
    Consistent { s with control := .taking next } where
  fits := by
    intro i w at_i
    have fits := consistent.fits i w at_i
    have same : Tracks { s with control := .taking next } i ↔ Tracks s i := by
      simp only [Tracks, idle, Control.writer]
    refine ⟨fits.sound, fun on => fits.serving (on.imp_right ?_), ?_, fits.finished, ?_, ?_⟩
    · rintro ⟨⟩
    · rintro next' ⟨⟩
    · rw [same]
      exact fits.owned
    · rw [same]
      exact fun tracked => ⟨(fits.counted tracked).1, (fits.counted tracked).2⟩
  there := by
    rintro i (on | ⟨⟨⟩⟩)
    exact consistent.there i (.inl on)
  inner := fun _ => .inr ⟨next, rfl⟩
  recording := consistent.recording
  sending := consistent.sending
  reset := by
    rintro cfg (⟨⟨⟩⟩ | ⟨⟨⟩⟩)

/-- `stop_internal` deals with the writer it has taken. -/
theorem consistent_stopping (consistent : Consistent s) {i : Nat} {w w' : TrackerWriter Record}
    {control : Control} (off : s.tracker.inner = none) (mine : s.control.writer = some i)
    (at_i : s.writers[i]? = some w) (sound : w'.Sound)
    (same : w'.offered = w.offered ∧ w'.accepted = w.accepted)
    (finished : w'.joined → w'.phase = .finished)
    (closed : ∀ next, control = .joining i next → w'.connected = false)
    (owned : w'.joined ∨ control.writer = some i)
    (stopping : (∃ next, control = .dropping i next) ∨ (∃ next, control = .joining i next) ∨
      ∃ next, control = .stopped next) :
    Consistent { s.setWriter i w' with control } where
  fits := by
    refine Threads.forall_getElem?_set ?_ fun j other apart at_j => ?_
    · refine ⟨sound, ?_, closed, finished, owned.imp_right .inr, fun _ => ?_⟩
      · rintro (on | publishing)
        · exact absurd (off.symm.trans on) (by simp)
        · rcases stopping with ⟨_, rfl⟩ | ⟨_, rfl⟩ | ⟨_, rfl⟩ <;> cases publishing
      · obtain ⟨accepted, dropped⟩ := (consistent.fits i w at_i).counted (.inr mine)
        rw [← same.1, ← same.2] at accepted dropped
        exact ⟨accepted, dropped⟩
    · have fits := consistent.fits j other at_j
      -- the other writers were stopped before
      have untracked : ¬ Tracks s j := by
        rintro (on | theirs)
        · exact absurd (off.symm.trans on) (by simp)
        · exact apart (Option.some.inj (theirs.symm.trans mine))
      have elsewhere : ¬ Tracks { s.setWriter i w' with control } j := by
        rintro (on | theirs)
        · exact absurd (off.symm.trans on) (by simp)
        · rcases stopping with ⟨_, rfl⟩ | ⟨_, rfl⟩ | ⟨_, rfl⟩
          · exact apart (Option.some.inj theirs).symm
          · exact apart (Option.some.inj theirs).symm
          · cases theirs
      refine ⟨fits.sound, ?_, ?_, fits.finished, .inl (fits.owned.resolve_right untracked),
        fun tracked => absurd tracked elsewhere⟩
      · rintro (on | publishing)
        · exact absurd (off.symm.trans on) (by simp)
        · exact absurd (.inr (congrArg Control.writer publishing)) elsewhere
      · intro next joining
        exact absurd (.inr (congrArg Control.writer joining)) elsewhere
  there := by
    rintro j (on | theirs)
    · exact absurd (off.symm.trans on) (by simp)
    · have here := (List.getElem?_eq_some_iff.mp at_i).1
      simp only [setWriter, List.length_set]
      rcases stopping with ⟨_, rfl⟩ | ⟨_, rfl⟩ | ⟨_, rfl⟩
      · cases theirs
        exact here
      · cases theirs
        exact here
      · cases theirs
  inner := by
    intro on
    rw [show (s.setWriter i w').tracker.inner = none from off] at on
    cases on
  recording := consistent.recording
  sending := consistent.sending
  reset := by
    intro cfg starting
    rcases stopping with ⟨_, rfl⟩ | ⟨_, rfl⟩ | ⟨_, rfl⟩ <;> simp at starting

/-- `start_internal` spawns a writer. -/
theorem consistent_spawn (consistent : Consistent s) {cfg : ConnectionTrackingConfig}
    (opening : s.control = .opening cfg) :
    Consistent { s with
      writers := s.writers ++ [.spawned cfg], control := .publishing s.writers.length } := by
  have off : s.tracker.inner = none :=
    consistent.off (by simp [opening]) (by simp [opening])
  have free := consistent.free off
  -- no older writer is in use: the new one is the only one that this call knows
  have untracked (i : Nat) : ¬ Tracks s i := by simp [Tracks, off, opening, Control.writer]
  refine ⟨?_, by simp [Tracks, off, Control.writer], by simp [off], consistent.recording,
    consistent.sending, by simp⟩
  intro i w at_i
  rw [List.getElem?_append] at at_i
  split at at_i
  next early =>
    have fits := consistent.fits i w at_i
    have elsewhere : s.writers.length ≠ i := by omega
    refine ⟨fits.sound, ?_, by simp, fits.finished,
      .inl (fits.owned.resolve_right (untracked i)), ?_⟩
    · simp [off, elsewhere]
    · simp [Tracks, off, Control.writer, elsewhere]
  next late =>
    obtain ⟨rfl, rfl⟩ : i = s.writers.length ∧ w = .spawned cfg := by
      rw [List.getElem?_singleton] at at_i
      split at at_i
      · cases at_i
        exact ⟨by omega, rfl⟩
      · cases at_i
    refine ⟨⟨?_, ?_, ?_, ?_, ?_⟩, fun _ => ⟨rfl, rfl, .inl rfl⟩, by simp, ?_, .inr (.inr rfl),
      fun _ => ⟨?_, ?_⟩⟩
    · rfl
    · simp [TrackerWriter.spawned]
    · simp [TrackerWriter.spawned]
    · simp [TrackerWriter.spawned]
    · simp [TrackerWriter.spawned]
    · simp [TrackerWriter.spawned]
    · simp [TrackerWriter.spawned, free, pending]
    · simp [TrackerWriter.spawned, free, uncounted, consistent.reset cfg (.inr opening)]

/-- `start_internal` puts the writer where `record` finds it. -/
theorem consistent_publish (consistent : Consistent s) {i : Nat} (free : s.recording = none)
    (publishing : s.control = .publishing i) :
    Consistent { s with tracker.inner := some i, control := .idle } := by
  have off : s.tracker.inner = none :=
    consistent.off (by simp [publishing]) (by simp [publishing])
  have same (j : Nat) :
      Tracks { s with tracker.inner := some i, control := .idle } j ↔ Tracks s j := by
    simp [Tracks, off, publishing, Control.writer]
  refine ⟨?_, fun j tracks => consistent.there j ((same j).mp tracks), fun _ => .inl rfl,
    by simp [free], by simp [free], by simp⟩
  intro j w at_j
  have fits := consistent.fits j w at_j
  refine ⟨fits.sound, ?_, by simp, fits.finished, ?_, ?_⟩
  · rintro (on | ⟨⟨⟩⟩)
    cases on
    exact fits.serving (.inr publishing)
  · rw [same]
    exact fits.owned
  · rw [same]
    exact fun tracked => ⟨(fits.counted tracked).1, (fits.counted tracked).2⟩

private theorem consistent_take (consistent : Consistent s) {next : Option ConnectionTrackingConfig}
    (taking : s.control = .taking next) (free : s.recording = none) :
    Consistent { s with
      tracker.inner := none
      control :=
        match s.tracker.inner with
        | none => .stopped next
        | some i => .signalling i next } := by
  cases inner : s.tracker.inner with
  | none =>
    apply consistent_control consistent <;> simp [Tracks, Control.writer, inner, taking, free]
  | some i =>
    apply consistent_control consistent <;>
      simp [Tracks, Control.writer, inner, taking, free]

private theorem consistent_proceed (consistent : Consistent s) {opened : Bool}
    (stepped : s.proceed opened = some s') : Consistent s' := by
  unfold proceed at stepped
  split at stepped
  next => cases stepped
  -- `inner.take()` waits for the lock that `record` may hold
  next next' taking =>
    split at stepped
    · cases stepped
    next free =>
      cases stepped
      exact consistent_take consistent taking (Option.not_isSome_iff_eq_none.mp free)
  -- from here on `inner` is `None`: no record can be sent to a writer that is being stopped
  next i next' signalling =>
    have off := consistent.off (by simp [signalling]) (by simp [signalling])
    obtain ⟨w, at_i, stepped⟩ := Option.bind_eq_some_iff.mp stepped
    cases stepped
    have fits := consistent.fits i w at_i
    exact consistent_stopping consistent off (by rw [signalling]; rfl) at_i
      ⟨fits.sound.1, fits.sound.2, fits.sound.3, fits.sound.4, fits.sound.5⟩ ⟨rfl, rfl⟩
      fits.finished (by simp) (.inr rfl) (.inl ⟨next', rfl⟩)
  next i next' dropping =>
    have off := consistent.off (by simp [dropping]) (by simp [dropping])
    obtain ⟨w, at_i, stepped⟩ := Option.bind_eq_some_iff.mp stepped
    cases stepped
    have fits := consistent.fits i w at_i
    exact consistent_stopping consistent off (by rw [dropping]; rfl) at_i
      ⟨fits.sound.1, fits.sound.2, fits.sound.3, fits.sound.4, fits.sound.5⟩ ⟨rfl, rfl⟩
      fits.finished (fun _ _ => rfl) (.inr rfl) (.inr (.inl ⟨next', rfl⟩))
  next i next' joining =>
    have off := consistent.off (by simp [joining]) (by simp [joining])
    obtain ⟨w, at_i, stepped⟩ := Option.bind_eq_some_iff.mp stepped
    have fits := consistent.fits i w at_i
    split at stepped
    -- `join` returns only when the thread has returned, and its queue is drained by then
    next finished =>
      cases stepped
      exact consistent_stopping consistent off (by rw [joining]; rfl) at_i
        ⟨fits.sound.1, fits.sound.2, fits.sound.3, fits.sound.4, fits.sound.5⟩ ⟨rfl, rfl⟩
        (fun _ => finished) (by simp) (.inl rfl) (.inr (.inr ⟨next', rfl⟩))
    next => cases stepped
  next stopped =>
    have off := consistent.off (by simp [stopped]) (by simp [stopped])
    cases stepped
    apply consistent_control consistent off (consistent.free off) <;>
      simp [Tracks, Control.writer, off, stopped]
  next cfg stopped =>
    have off := consistent.off (by simp [stopped]) (by simp [stopped])
    cases stepped
    split <;> apply consistent_control consistent <;>
      simp [Tracks, Control.writer, off, stopped, consistent.free off]
  next cfg resetting =>
    have off := consistent.off (by simp [resetting]) (by simp [resetting])
    cases stepped
    apply consistent_control consistent <;>
      simp [Tracks, Control.writer, off, resetting, consistent.free off]
  next cfg resetting =>
    have off := consistent.off (by simp [resetting]) (by simp [resetting])
    -- the drops were set to zero just before, and no record can have been dropped since
    have zero := consistent.reset cfg (.inl resetting)
    cases stepped
    apply consistent_control consistent <;>
      simp [Tracks, Control.writer, off, resetting, consistent.free off, zero]
  next cfg opening =>
    have off := consistent.off (by simp [opening]) (by simp [opening])
    split at stepped
    · cases stepped
      exact consistent_spawn consistent opening
    · cases stepped
      apply consistent_control consistent off (consistent.free off) <;>
        simp [Tracks, Control.writer, off, opening]
  next i publishing =>
    split at stepped
    · cases stepped
    next free =>
      cases stepped
      exact consistent_publish consistent (Option.not_isSome_iff_eq_none.mp free) publishing

private theorem consistent_trySend (consistent : Consistent s) {i : Nat} {rec : Record}
    (sending : s.recording = some (.sending i rec)) {w : TrackerWriter Record}
    (at_i : s.writers[i]? = some w)
    (stepped : (match w.trySend rec with
      | some w => some { s.setWriter i w with recording := some .queued }
      | none => some { s with recording := some .dropped }) = some s') : Consistent s' := by
  have serving :=
    (consistent.fits i w at_i).serving (.inl (consistent.sending i rec sending))
  rw [TrackerWriter.trySend_eq serving] at stepped
  split at stepped
  next w' sent =>
    split at sent
    · cases sent
      cases stepped
      exact consistent_accepted consistent sending at_i
    · cases sent
  next =>
    cases stepped
    refine consistent_recording consistent (by rw [sending]; rfl) (by simp) ?_
    rintro other ⟨accepted, dropped⟩
    rw [sending] at accepted dropped
    refine ⟨?_, dropped⟩
    exact (List.sublist_append_left _ _).trans (by simpa [pending] using accepted)

theorem consistent_step (s : Tracking Record) (event : TrackingEvent Record)
    (s' : Tracking Record) (consistent : Consistent s) (stepped : step s event = some s') :
    Consistent s' := by
  cases event with
  | record rec =>
    simp only [step] at stepped
    split at stepped
    · cases stepped
    -- `record` holds the lock while it sends, so that calls of it come one after another
    next free =>
      split at stepped
      · cases stepped
        exact consistent
      next i inner =>
        obtain ⟨w, at_i, stepped⟩ := Option.bind_eq_some_iff.mp stepped
        cases stepped
        exact consistent_record consistent (Option.not_isSome_iff_eq_none.mp free) inner at_i rec
  | trySend =>
    simp only [step] at stepped
    split at stepped
    next i rec sending =>
      obtain ⟨w, at_i, stepped⟩ := Option.bind_eq_some_iff.mp stepped
      exact consistent_trySend consistent sending at_i stepped
    next => cases stepped
  | count =>
    simp only [step] at stepped
    split at stepped
    -- `try_send` has failed before, and the drop is counted only now
    next dropped =>
      cases stepped
      refine consistent_recording consistent (by rw [dropped]; rfl) (by simp) ?_
      rintro w ⟨accepted, count⟩
      rw [dropped] at accepted count
      refine ⟨accepted, ?_⟩
      simp only [uncounted, Nat.add_zero, UInt64.ofNat_add] at count ⊢
      rw [count]
      ac_rfl
    next queued =>
      cases stepped
      refine consistent_recording consistent (by rw [queued]; rfl) (by simp) ?_
      rintro w ⟨accepted, count⟩
      rw [queued] at accepted count
      exact ⟨accepted, count⟩
    next => cases stepped
  | applyConfig cfg =>
    simp only [step] at stepped
    split at stepped
    next idle =>
      split at stepped
      · cases stepped
        exact consistent
      · cases stepped
        exact consistent_begin consistent idle (some cfg)
    next => cases stepped
  | shutdown =>
    simp only [step] at stepped
    split at stepped
    next idle =>
      cases stepped
      exact consistent_begin consistent idle none
    next => cases stepped
  | proceed opened => exact consistent_proceed consistent stepped
  | write i arm =>
    simp only [step] at stepped
    obtain ⟨w, at_i, stepped⟩ := Option.bind_eq_some_iff.mp stepped
    obtain ⟨⟨hint, w'⟩, moved, stepped⟩ := Option.bind_eq_some_iff.mp stepped
    cases stepped
    exact consistent_write consistent at_i (TrackerWriter.moves_of_advance moved)

/-- The writer that `stop_internal` waits for finishes, and `stop_internal` returns. -/
theorem stop_returns (consistent : Consistent s) {i : Nat} {next : Option ConnectionTrackingConfig}
    (joining : s.control = .joining i next) :
    ∃ n t t', run step s (List.replicate n (.write i .records)) = some t ∧
      t.proceed false = some t' ∧ t'.control = .stopped next := by
  obtain ⟨w, at_i⟩ : ∃ w, s.writers[i]? = some w :=
    ⟨_, List.getElem?_eq_getElem (consistent.there i (.inr (by rw [joining]; rfl)))⟩
  -- by induction on the work that is left for the writer
  induction left : w.work using Nat.strong_induction_on generalizing s w with
  | _ work ih =>
    have closed := (consistent.fits i w at_i).closed next joining
    by_cases finished : w.phase = .finished
    · refine ⟨0, s, { s.setWriter i { w with joined := true } with control := .stopped next },
        rfl, ?_, rfl⟩
      simp [proceed, joining, at_i, finished]
    · obtain ⟨⟨hint, w'⟩, moved⟩ := Option.isSome_iff_exists.mp
        (TrackerWriter.advance_isSome s.tracker.queuedHint closed finished)
      have stepped : step s (.write i .records) =
          some { s.setWriter i w' with tracker.queuedHint := hint } := by
        simp [step, at_i, moved]
      have less := (TrackerWriter.moves_of_advance moved).work_lt closed
      have here := (List.getElem?_eq_some_iff.mp at_i).1
      obtain ⟨n, t, t', ran, returned, stopped⟩ :=
        ih w'.work (left ▸ less) (consistent_step _ _ _ consistent stepped) joining w'
          (List.getElem?_set_self here) rfl
      refine ⟨n + 1, t, t', ?_, returned, stopped⟩
      rw [List.replicate_succ]
      exact run_cons_eq_some.mpr ⟨_, stepped, ran⟩

/-- Each record that was accepted is passed to `write_batch` once and in the order it was
sent, in batches that are not too large but for the final flush; all of them are once the
`stop_internal` that ends the writer returns, and it does return. The other records are
counted as dropped. -/
structure Accounted (s : Tracking Record) : Prop where
  inOrder : ∀ w ∈ s.writers, (w.written ++ w.flushed).flatten <+: w.accepted
  complete : ∀ w ∈ s.writers, w.joined → (w.written ++ w.flushed).flatten = w.accepted
  ended : ∀ i w, s.writers[i]? = some w → w.joined ∨ Tracks s i
  returns : ∀ i next, s.control = .joining i next →
    ∃ n t t', run step s (List.replicate n (.write i .records)) = some t ∧
      t.proceed false = some t' ∧ t'.control = .stopped next
  dropped : ∀ i w, s.writers[i]? = some w → Tracks s i → Counted s w
  small : ∀ w ∈ s.writers, ∀ batch ∈ w.written, batch.length ≤ w.batchLimit

theorem accounted_of_consistent (consistent : Consistent s) : Accounted s where
  inOrder := by
    intro w member
    obtain ⟨i, at_i⟩ := List.mem_iff_getElem?.mp member
    rw [← (consistent.fits i w at_i).sound.conserved, List.append_assoc]
    exact List.prefix_append _ _
  complete := by
    intro w member joined
    obtain ⟨i, at_i⟩ := List.mem_iff_getElem?.mp member
    have fits := consistent.fits i w at_i
    have finished := fits.finished joined
    have conserved := fits.sound.conserved
    rw [finished, fits.sound.drained (.inr finished)] at conserved
    simpa [Phase.inHand] using conserved
  ended := fun i w at_i => (consistent.fits i w at_i).owned
  returns := fun _ _ joining => stop_returns consistent joining
  dropped := fun i w at_i => (consistent.fits i w at_i).counted
  small := by
    intro w member
    obtain ⟨i, at_i⟩ := List.mem_iff_getElem?.mp member
    exact (consistent.fits i w at_i).sound.small

/-- However the calls of `record`, of `apply_config` and `shutdown` and the steps of the
writers follow each other, every record is accounted for. -/
theorem records_always_accounted (events : List (TrackingEvent Record)) :
    Always step Accounted start events := by
  have initial : Consistent (start : Tracking Record) := consistent_start
  have always := always_of_keep consistent_step events initial
  exact always.imp fun s => accounted_of_consistent

/-- Six records, of which the writer takes three before it is told to stop. -/
def sixRecords : List (TrackingEvent Nat) :=
  List.flatten
    [[.applyConfig { enabled := true, batchSize := 2, queueCapacity := 3 }],
      List.replicate 6 (.proceed true),
      [.record 1, .trySend, .count, .write 0 .records, .record 2, .trySend, .count,
        .write 0 .records, .record 3, .trySend, .count, .record 4, .trySend, .count,
        .record 5, .trySend, .count, .record 6, .trySend, .count],
      List.replicate 3 (.write 0 .records), [.shutdown, .proceed true, .proceed true],
      [.write 0 .shutdown], List.replicate 5 (.write 0 .records),
      List.replicate 3 (.proceed true)]

-- With batches of two and a queue of three, the sixth record is dropped, the writer has one
-- batch written when it is told to stop, and the rest goes into the final flush.
example :
    (run step start sixRecords).map
      (fun s => (s.writers.map fun w => (w.written, w.flushed, w.joined),
        s.tracker.droppedSinceStart)) =
      some ([([[1, 2]], [[3, 4, 5]], true)], 1) := by
  rfl

end Tracking

end MCGate
