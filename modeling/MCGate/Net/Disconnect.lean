import MCGate.Net.Inject

/-!
# Disconnect requests

A kick, a transfer, a reached limit and the shutdown all end in `notify_waiters`, which
wakes the `Notified` futures that exist and leaves nothing behind for later ones. The
relay has such a future only while it waits in its `select!`, and gives it up to any
socket branch that wins. `RequestsHeard` is what a run must look like for every request
to be answered before anything else happens.
-/
namespace MCGate

/-- Whoever wants a session to end. -/
inductive Request where
  | kickCommand (message : Option Text)
  | transferCommand (host : Text) (port : UInt16)
  | enforceLimits
  | shutdownGracefully
  deriving DecidableEq, Repr

/-- What the request wants the relay to do. -/
def Request.action : Request → SessionAction
  | .kickCommand (some message) => .kickWithMessage message
  | .transferCommand host port => .transfer host port
  | _ => .disconnect

/-- What the request does to the session. Only the commands that carry something store
an action; the others rely on the default being there. -/
def Request.events (request : Request) : List RelayEvent :=
  match request with
  | .kickCommand (some _) | .transferCommand _ _ => [.store request.action, .notify request.action]
  | _ => [.notify request.action]

/-- The relay's task is polled. -/
def RelayEvent.isPoll : RelayEvent → Bool
  | .poll _ _ _ => true
  | _ => false

namespace Relay

variable {zlib : Zlib} {toLowercase : Text → Text}

/-- After every request that finds the relay running, the relay hands no further chunk to either
side and ends only by running the requested action: until its task is polled it holds the
wake-up, and with the first poll it takes the action. -/
def NoRequestLost (zlib : Zlib) (toLowercase : Text → Text) (r : Relay)
    (events : List RelayEvent) : Prop :=
  ∀ before requested after later t t',
    events = before ++ .notify requested :: (after ++ later) →
    Machine.run (step zlib toLowercase) r before = some t → t.phase ≠ .ended →
    Machine.run (step zlib toLowercase) t (.notify requested :: after) = some t' →
    t'.splice.toBackend.handed = t.splice.toBackend.handed ∧
      t'.splice.toClient.handed = t.splice.toClient.handed ∧
      if after.any RelayEvent.isPoll then t'.taken = some requested
      else t'.Woken ∧ t'.taken = none

/-- The wake-up reaches a waiting relay whose stored action is the requested one; until
it is seen nobody stores another, and no socket polled before it has anything: neither a chunk
nor the end of its stream nor an error. -/
def RequestsHeard (r : Relay) : RelayEvent → Prop
  | .notify requested =>
    r.phase ≠ .ended → (∃ n, r.phase = .selecting (some n)) ∧ r.pendingAction = requested
  | .store action => r.Woken → action = r.pendingAction
  | .poll first client backend =>
    r.Woken → ∀ b ∈ first.beforeAction, r.socketPoll client backend b = .pending
  | _ => True

/-- Nothing was handed on since `t`, and the request is held or was run. -/
structure Answering (t : Relay) (requested : SessionAction) (r : Relay) : Prop where
  up : r.splice.toBackend.handed = t.splice.toBackend.handed
  down : r.splice.toClient.handed = t.splice.toClient.handed
  held : r.phase = .ended ∧ r.taken = some requested ∨
    r.Woken ∧ r.pendingAction = requested ∧ r.taken = none

private theorem answering_notify {r r' : Relay} {requested : SessionAction}
    (fresh : r.taken = none) (running : r.phase ≠ .ended)
    (heard : r.RequestsHeard (.notify requested))
    (stepped : r.step zlib toLowercase (.notify requested) = some r') :
    Answering r requested r' := by
  obtain ⟨waiting, stored⟩ := heard running
  cases step_effect stepped with
  | wake _ owned => exact ⟨rfl, rfl, Or.inr ⟨⟨owned, rfl⟩, stored, fresh⟩⟩
  | missed unheard => exact absurd waiting unheard

/-- A poll of a woken relay runs the action, if it is heard. -/
theorem answered_of_poll {r r' : Relay} {first : Branch} {client backend : Option Arrival}
    (woken : r.Woken) (heard : r.RequestsHeard (.poll first client backend))
    (stepped : r.step zlib toLowercase (.poll first client backend) = some r') :
    ∃ session, r' = r.acted zlib toLowercase session := by
  obtain ⟨session, -, acts⟩ := @poll_acts zlib toLowercase r first client backend
    ⟨woken, heard woken⟩
  rw [acts] at stepped
  exact ⟨session, (Option.some.inj stepped).symm⟩

private theorem answering_step {t r r' : Relay} {requested : SessionAction} {e : RelayEvent}
    (answering : Answering t requested r) (heard : r.RequestsHeard e)
    (stepped : r.step zlib toLowercase e = some r') :
    Answering t requested r' ∧ (r.taken = some requested ∨ e.isPoll → r'.taken = some requested) ∧
      (r.taken = none → e.isPoll = false → r'.taken = none) := by
  obtain ⟨up, down, held⟩ := answering
  rcases held with ⟨ended, taken⟩ | ⟨woken, stored, fresh⟩
  · obtain ⟨action, rfl⟩ := step_ended ended stepped
    refine ⟨⟨up, down, .inl ⟨ended, taken⟩⟩, fun _ => taken, fun none => ?_⟩
    rw [taken] at none
    cases none
  · have selecting := woken.2
    have notYet : r.taken ≠ some requested := by rw [fresh]; exact nofun
    -- what is no poll leaves a woken relay as it was
    have waits {r' : Relay} (noPoll : e.isPoll = false) (splice : r'.splice = r.splice)
        (woken : r'.Woken) (stored : r'.pendingAction = requested) (fresh : r'.taken = none) :
        Answering t requested r' ∧
          (r.taken = some requested ∨ e.isPoll → r'.taken = some requested) ∧
          (r.taken = none → e.isPoll = false → r'.taken = none) := by
      refine ⟨⟨splice ▸ up, splice ▸ down, .inr ⟨woken, stored, fresh⟩⟩, ?_, fun _ _ => fresh⟩
      rintro (taken | poll)
      · exact absurd taken notYet
      · rw [noPoll] at poll
        cases poll
    cases e with
    | poll first client backend =>
      obtain ⟨session, rfl⟩ := answered_of_poll woken heard stepped
      have taken : some r.pendingAction = some requested := congrArg some stored
      exact ⟨⟨up, down, .inl ⟨rfl, taken⟩⟩, fun _ => taken, fun _ => nofun⟩
    | wrote n =>
      cases step_effect stepped with
      | uploaded writing | downloaded writing => simp [selecting] at writing
    | writeFailed =>
      cases step_effect stepped with
      | uploadFails writing | downloadFails writing => simp [selecting] at writing
    | store action =>
      cases step_effect stepped with
      | store => exact waits rfl rfl woken ((heard woken).trans stored) fresh
    | notify other =>
      cases step_effect stepped with
      | wake _ owned => exact waits rfl rfl ⟨owned, rfl⟩ stored fresh
      | missed => exact waits rfl rfl woken stored fresh

/-- What a run makes of a request that is held. -/
theorem answering_run {t r r' : Relay} {requested : SessionAction} {events later : List RelayEvent}
    (answering : Answering t requested r)
    (heard : Machine.Guarded (step zlib toLowercase) RequestsHeard r (events ++ later))
    (ran : Machine.run (step zlib toLowercase) r events = some r') :
    Answering t requested r' ∧
      (r.taken = some requested ∨ events.any RelayEvent.isPoll → r'.taken = some requested) ∧
      (r.taken = none → events.any RelayEvent.isPoll = false → r'.taken = none) := by
  induction events generalizing r with
  | nil =>
    cases ran
    exact ⟨answering, fun taken => taken.resolve_right nofun, fun none _ => none⟩
  | cons e events ih =>
    obtain ⟨u, stepped, rest⟩ := Machine.run_cons_eq_some.mp ran
    obtain ⟨now, takes, leaves⟩ := answering_step answering heard.1 stepped
    obtain ⟨last, takes', leaves'⟩ := ih now (heard.2 u stepped) rest
    rw [List.any_cons]
    refine ⟨last, fun taken => takes' ?_, fun none quiet => ?_⟩
    · rw [Bool.or_eq_true, ← or_assoc] at taken
      exact taken.imp takes id
    · rw [Bool.or_eq_false_iff] at quiet
      exact leaves' (leaves none quiet.1) quiet.2

/-- No request is lost in a run in which every one is heard. -/
theorem no_request_lost (zlib : Zlib) (toLowercase : Text → Text) (splice : Splice)
    (session : Option PlayerSession) (events : List RelayEvent)
    (heard : Machine.Guarded (step zlib toLowercase) RequestsHeard (start splice session) events) :
    NoRequestLost zlib toLowercase (start splice session) events := by
  intro before requested after later t t' split reached running ran
  subst split
  have rest := heard.rest reached
  have final : t.Final := Machine.run_invariant Final (fun _ _ _ => final_step)
    (final_start splice session) reached
  -- a relay that still runs has taken no action yet
  have fresh : t.taken = none := by
    by_contra taken
    exact running (final (Or.inl (Option.isSome_iff_ne_none.mpr taken)))
  obtain ⟨u, notified, ran⟩ := Machine.run_cons_eq_some.mp ran
  have answering := answering_notify fresh running rest.1 notified
  have untouched : u.taken = none := by
    cases step_effect notified with
    | wake => exact fresh
    | missed => exact fresh
  obtain ⟨⟨up, down, held⟩, takes, leaves⟩ := answering_run answering (rest.2 u notified) ran
  refine ⟨up, down, ?_⟩
  split
  next polled => exact takes (.inr polled)
  next quiet =>
    have none := leaves untouched (Bool.eq_false_iff.mpr quiet)
    rcases held with ⟨-, taken⟩ | ⟨woken, -, -⟩
    · rw [none] at taken
      cases taken
    · exact ⟨woken, none⟩

theorem kick_of_idle_relay_heard :
    (Machine.run (step Sniff.uncompressed id) idleRelay
        (.poll .client none none :: (Request.kickCommand (some "bye".toList)).events ++
          [.poll .client none none])).bind Relay.taken =
        some (.kickWithMessage "bye".toList) ∧
      NoRequestLost Sniff.uncompressed id idleRelay
        (.poll .client none none :: (Request.kickCommand (some "bye".toList)).events ++
          [.poll .client none none]) := by
  refine ⟨by decide, ?_⟩
  apply no_request_lost
  refine (Machine.guarded_cons_iff rfl).mpr ⟨fun woken => ?_, ?_⟩
  · exact absurd woken.2 (by decide)
  refine (Machine.guarded_cons_iff rfl).mpr ⟨fun woken => ?_, ?_⟩
  · exact absurd woken.2 (by decide)
  refine (Machine.guarded_cons_iff rfl).mpr ⟨fun _ => ⟨⟨false, rfl⟩, rfl⟩, ?_⟩
  refine (Machine.guarded_cons_iff rfl).mpr ⟨fun _ b polled => ?_, trivial⟩
  -- neither socket has anything
  simp only [Branch.beforeAction, List.mem_cons, List.not_mem_nil, or_false] at polled
  rcases polled with rfl | rfl <;> rfl

/-- A shutdown that comes while a chunk is being written goes unheard: the next chunk is
relayed as well. -/
theorem shutdown_during_write_lost :
    ¬ NoRequestLost Sniff.uncompressed id idleRelay
      (.poll .client none (some (.ready 3)) :: Request.shutdownGracefully.events ++
        [.wrote 3, .poll .client none (some (.ready 2))]) := by
  intro kept
  have lost := kept [.poll .client none (some (.ready 3))] .disconnect
    [.wrote 3, .poll .client none (some (.ready 2))] [] _ _ rfl rfl (by decide) rfl
  exact absurd lost.2.1 (by decide)

end Relay

end MCGate
