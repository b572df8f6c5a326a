import MCGate.Net.Sniff
import MCGate.Protocol.LegacyText

/-!
# The relay

`relay` selects between three branches: a chunk from the client, a chunk from the
backend, and the wake-up of `session.disconnect`. `select!` polls the branches in turn
from a random one on and runs the first that is ready; the others are dropped. The
body of a socket branch hands its chunk to the other side and waits until it is
written. The wake-up can only be received by a `Notified` that exists, that is after
the third branch was polled and before another one won.

Commands act on the session from other tasks, in two steps: they store the action and
then call `notify_waiters`. `Effect` lists what a step can do, guards included, and
`step_effect` that it can do nothing else; the results about runs follow from it.
-/
namespace MCGate

/-- The branches of the `select!`, in the order of the source. -/
inductive Branch where
  | client
  | backend
  | action
  deriving DecidableEq, Repr

def Branch.rotation : Branch → List Branch
  | .client => [.client, .backend, .action]
  | .backend => [.backend, .action, .client]
  | .action => [.action, .client, .backend]

inductive RelayPhase where
  /-- In the `select!`. `notified` is the third branch's `Notified`: not created yet,
  waiting, or woken. -/
  | selecting (notified : Option Bool)
  | uploading
  | downloading
  | ended
  deriving DecidableEq, Repr

/-- The counters of the session and of the route; nobody reads them where there is none. -/
structure Traffic where
  packetsSent : Int64
  bytesSent : Int64
  packetsReceived : Int64
  bytesReceived : Int64
  uploadBytes : Int64
  downloadBytes : Int64
  deriving DecidableEq, Repr

structure Relay where
  splice : Splice
  session : Option PlayerSession
  pendingAction : SessionAction
  traffic : Traffic
  phase : RelayPhase
  /-- The action that `handle_pending_action` took. -/
  taken : Option SessionAction
  /-- The packet it wrote to the client. -/
  injected : Option Bytes
  deriving DecidableEq, Repr

inductive RelayEvent where
  /-- The task is polled: `select!` starts at a branch, and the sockets answer. -/
  | poll (first : Branch) (client backend : Option Arrival)
  /-- The socket of the current `write_all` takes bytes, or fails. -/
  | wrote (n : Nat)
  | writeFailed
  /-- A command stores its action in the session. -/
  | store (action : SessionAction)
  /-- A request for an action calls `notify_waiters`. -/
  | notify (requested : SessionAction)
  deriving DecidableEq, Repr

/-- The packet `handle_pending_action` writes, if any. It panics on a message that cannot be
rendered, and writes nothing. -/
def actionPacket (zlib : Zlib) (toLowercase : Text → Text) (session : PlayerSession) :
    SessionAction → Option Bytes
  | .disconnect => none
  | .kickWithMessage message =>
    if canInjectPacket session then do
      let ids ← bracketFor session.protocolVersion
      let rendered ← TextFormat.toLegacyText toLowercase message
      return encodePlayDisconnect zlib ids rendered session.compressionThreshold
    else none
  | .transfer host port =>
    if canInjectPacket session then
      (bracketFor session.protocolVersion).map fun ids =>
        encodeTransfer zlib ids host port session.compressionThreshold
    else none

namespace Relay

def start (splice : Splice) (session : Option PlayerSession) : Relay where
  splice := splice
  session := session
  pendingAction := .disconnect
  traffic := ⟨0, 0, 0, 0, 0, 0⟩
  phase := .selecting none
  taken := none
  injected := none

/-- What polling a branch came to: the branch ran, or it is pending. -/
inductive Polled where
  | won (r : Relay)
  | pending (r : Relay)
  deriving DecidableEq, Repr

def pollClient (r : Relay) (arrival : Option Arrival) : Polled :=
  match r.splice.client.pollRead 8192 arrival with
  | (.pending, _) => .pending r
  | (.ready (.error _), client) =>
    .won { r with splice := { r.splice with client := client }, phase := .ended }
  | (.ready (.ok []), client) =>
    .won { r with splice := { r.splice with client := client }, phase := .ended }
  | (.ready (.ok chunk), client) =>
    let n := Int64.ofNat chunk.length
    .won { r with
      splice := { r.splice with client := client, toBackend := r.splice.toBackend.hand chunk }
      traffic := { r.traffic with
        packetsSent := r.traffic.packetsSent + 1, bytesSent := r.traffic.bytesSent + n
        uploadBytes := r.traffic.uploadBytes + n }
      phase := .uploading }

def pollBackend (r : Relay) (arrival : Option Arrival) : Polled :=
  match r.splice.backend.pollRead 8192 arrival with
  | (.pending, _) => .pending r
  | (.ready (.error _), backend) =>
    .won { r with splice := { r.splice with backend := backend }, phase := .ended }
  | (.ready (.ok []), backend) =>
    .won { r with splice := { r.splice with backend := backend }, phase := .ended }
  | (.ready (.ok chunk), backend) =>
    let n := Int64.ofNat chunk.length
    .won { r with
      splice := { r.splice with backend := backend, toClient := r.splice.toClient.hand chunk }
      traffic := { r.traffic with
        packetsReceived := r.traffic.packetsReceived + 1
        bytesReceived := r.traffic.bytesReceived + n
        downloadBytes := r.traffic.downloadBytes + n }
      phase := .downloading }

/-- `wait_for_pending_action`, and `handle_pending_action` when it wakes. The action is
taken out of the session; the result of writing the packet is not looked at, and a panic ends
the relay as well. -/
def pollAction (zlib : Zlib) (toLowercase : Text → Text) (r : Relay) : Polled :=
  match r.session, r.phase with
  | some session, .selecting (some true) =>
    .won { r with
      pendingAction := .disconnect
      taken := some r.pendingAction
      injected := actionPacket zlib toLowercase session r.pendingAction
      phase := .ended }
  -- the first poll of the branch creates the `Notified`
  | some _, .selecting none => .pending { r with phase := .selecting (some false) }
  | _, _ => .pending r

def pollBranch (zlib : Zlib) (toLowercase : Text → Text) (client backend : Option Arrival)
    (r : Relay) : Branch → Polled
  | .client => r.pollClient client
  | .backend => r.pollBackend backend
  | .action => r.pollAction zlib toLowercase

/-- Polls the branches in order until one wins. -/
def pollBranches (zlib : Zlib) (toLowercase : Text → Text) (client backend : Option Arrival) :
    Relay → List Branch → Relay
  | r, [] => r
  | r, b :: rest =>
    match r.pollBranch zlib toLowercase client backend b with
    | .won r' => r'
    | .pending r' => pollBranches zlib toLowercase client backend r' rest

/-- The socket takes at least one byte of what is pending; with the last one `write_all`
returns and the loop starts over. -/
def wrote (w : Writer) (n : Nat) (phase : RelayPhase) : Option (Writer × RelayPhase) :=
  if w.broken ∨ w.pending = [] then none
  else
    let w := w.push (max n 1)
    -- a new round of the loop has a `select!` of its own, without a `Notified`
    some (w, if w.pending = [] then .selecting none else phase)

def step (zlib : Zlib) (toLowercase : Text → Text) (r : Relay) : RelayEvent → Option Relay
  | .poll first client backend =>
    match r.phase with
    | .selecting _ => some (pollBranches zlib toLowercase client backend r first.rotation)
    | _ => none
  | .wrote n =>
    match r.phase with
    | .uploading => (wrote r.splice.toBackend n .uploading).map fun (w, phase) =>
        { r with splice := { r.splice with toBackend := w }, phase := phase }
    | .downloading => (wrote r.splice.toClient n .downloading).map fun (w, phase) =>
        { r with splice := { r.splice with toClient := w }, phase := phase }
    | _ => none
  | .writeFailed =>
    match r.phase with
    | .uploading =>
      some { r with
        splice := { r.splice with toBackend := r.splice.toBackend.fail }, phase := .ended }
    | .downloading =>
      some { r with
        splice := { r.splice with toClient := r.splice.toClient.fail }, phase := .ended }
    | _ => none
  | .store action => if r.session.isSome then some { r with pendingAction := action } else none
  | .notify _ =>
    match r.session, r.phase with
    -- `notify_waiters` leaves no permit: only a `Notified` that exists is woken
    | some _, .selecting (some _) => some { r with phase := .selecting (some true) }
    | some _, _ => some r
    | none, _ => none

/-! ### What a step can do -/

end Relay

/-- The sockets that are polled before the wake-up. -/
def Branch.beforeAction : Branch → List Branch
  | .client => [.client, .backend]
  | .backend => [.backend]
  | .action => []

namespace Relay

/-- What a socket branch finds when it is polled. -/
def socketPoll (r : Relay) (client backend : Option Arrival) :
    Branch → Poll (Except IoError Bytes)
  | .client => (r.splice.client.pollRead 8192 client).1
  | .backend => (r.splice.backend.pollRead 8192 backend).1
  | .action => .pending

/-- The session's wake-up was received. -/
def Woken (r : Relay) : Prop := r.session.isSome ∧ r.phase = .selecting (some true)

/-- The wake-up is seen: no socket that is polled before it is ready. -/
def ActionWins (r : Relay) (first : Branch) (client backend : Option Arrival) : Prop :=
  r.Woken ∧ ∀ b ∈ first.beforeAction, r.socketPoll client backend b = .pending

/-- The relay after `handle_pending_action`. -/
def acted (zlib : Zlib) (toLowercase : Text → Text) (r : Relay) (session : PlayerSession) :
    Relay :=
  { r with
    pendingAction := .disconnect
    taken := some r.pendingAction
    injected := actionPacket zlib toLowercase session r.pendingAction
    phase := .ended }

/-- One constructor for each thing a step can do. A socket branch that wins over a
received wake-up was polled before it. -/
inductive Effect (zlib : Zlib) (toLowercase : Text → Text) (r : Relay) :
    RelayEvent → Relay → Prop where
  | wait {first : Branch} {client backend : Option Arrival} {n : Option Bool}
      (asleep : ¬ r.Woken)
      (created : r.phase = .selecting n ∨ r.phase = .selecting none ∧ n = some false) :
      Effect zlib toLowercase r (.poll first client backend) { r with phase := .selecting n }
  | upload {first : Branch} {client backend : Option Arrival} {chunk : Bytes}
      {rest : BufferedStream} {traffic : Traffic} (selecting : ∃ n, r.phase = .selecting n)
      (found : r.socketPoll client backend .client = .ready (.ok chunk)) (some : chunk ≠ [])
      (early : r.Woken → .client ∈ first.beforeAction)
      (read : chunk ++ rest.remainder = r.splice.client.remainder) :
      Effect zlib toLowercase r (.poll first client backend) { r with
        splice := { r.splice with client := rest, toBackend := r.splice.toBackend.hand chunk }
        traffic := traffic, phase := .uploading }
  | download {first : Branch} {client backend : Option Arrival} {chunk : Bytes}
      {rest : BufferedStream} {traffic : Traffic} (selecting : ∃ n, r.phase = .selecting n)
      (found : r.socketPoll client backend .backend = .ready (.ok chunk)) (some : chunk ≠ [])
      (early : r.Woken → .backend ∈ first.beforeAction)
      (read : chunk ++ rest.remainder = r.splice.backend.remainder) :
      Effect zlib toLowercase r (.poll first client backend) { r with
        splice := { r.splice with backend := rest, toClient := r.splice.toClient.hand chunk }
        traffic := traffic, phase := .downloading }
  | clientEnds {first : Branch} {client backend : Option Arrival} {rest : BufferedStream}
      (selecting : ∃ n, r.phase = .selecting n)
      (ready : r.socketPoll client backend .client ≠ .pending)
      (early : r.Woken → .client ∈ first.beforeAction)
      (read : rest.remainder = r.splice.client.remainder) :
      Effect zlib toLowercase r (.poll first client backend) { r with
        splice := { r.splice with client := rest }, phase := .ended }
  | backendEnds {first : Branch} {client backend : Option Arrival} {rest : BufferedStream}
      (selecting : ∃ n, r.phase = .selecting n)
      (ready : r.socketPoll client backend .backend ≠ .pending)
      (early : r.Woken → .backend ∈ first.beforeAction)
      (read : rest.remainder = r.splice.backend.remainder) :
      Effect zlib toLowercase r (.poll first client backend) { r with
        splice := { r.splice with backend := rest }, phase := .ended }
  | act {first : Branch} {client backend : Option Arrival} {session : PlayerSession}
      (wins : r.ActionWins first client backend) (owned : r.session = some session) :
      Effect zlib toLowercase r (.poll first client backend)
        (r.acted zlib toLowercase session)
  | uploaded {n : Nat} {phase : RelayPhase} (writing : r.phase = .uploading)
      (goesOn : phase = .uploading ∨
        phase = .selecting none ∧ (r.splice.toBackend.push (max n 1)).pending = []) :
      Effect zlib toLowercase r (.wrote n) { r with
        splice := { r.splice with toBackend := r.splice.toBackend.push (max n 1) }
        phase := phase }
  | downloaded {n : Nat} {phase : RelayPhase} (writing : r.phase = .downloading)
      (goesOn : phase = .downloading ∨
        phase = .selecting none ∧ (r.splice.toClient.push (max n 1)).pending = []) :
      Effect zlib toLowercase r (.wrote n) { r with
        splice := { r.splice with toClient := r.splice.toClient.push (max n 1) }
        phase := phase }
  | uploadFails (writing : r.phase = .uploading) :
      Effect zlib toLowercase r .writeFailed { r with
        splice := { r.splice with toBackend := r.splice.toBackend.fail }, phase := .ended }
  | downloadFails (writing : r.phase = .downloading) :
      Effect zlib toLowercase r .writeFailed { r with
        splice := { r.splice with toClient := r.splice.toClient.fail }, phase := .ended }
  | store {action : SessionAction} :
      Effect zlib toLowercase r (.store action) { r with pendingAction := action }
  | wake {requested : SessionAction} (waiting : ∃ n, r.phase = .selecting (some n))
      (owned : r.session.isSome) :
      Effect zlib toLowercase r (.notify requested) { r with phase := .selecting (some true) }
  | missed {requested : SessionAction} (unheard : ¬ ∃ n, r.phase = .selecting (some n)) :
      Effect zlib toLowercase r (.notify requested) r

variable {zlib : Zlib} {toLowercase : Text → Text}

/-- Polling the client branch does not look at the phase. -/
theorem pollClient_cases (r : Relay) (phase : RelayPhase) (first : Branch)
    (client backend : Option Arrival) (selecting : ∃ n, r.phase = .selecting n)
    (early : r.Woken → .client ∈ first.beforeAction) :
    (pollClient { r with phase := phase } client = .pending { r with phase := phase } ∧
      r.socketPoll client backend .client = .pending) ∨
    ∃ r', pollClient { r with phase := phase } client = .won r' ∧
      Effect zlib toLowercase r (.poll first client backend) r' := by
  have read := r.splice.client.pollRead_remainder 8192 client
  simp only [pollClient]
  cases polled : r.splice.client.pollRead 8192 client with
  | mk result rest =>
    have found : r.socketPoll client backend .client = result := by simp [socketPoll, polled]
    rw [polled] at read
    match result with
    | .pending => exact Or.inl ⟨rfl, found⟩
    | .ready (.error e) =>
      exact Or.inr ⟨_, rfl, .clientEnds selecting (by simp [found]) early read⟩
    | .ready (.ok []) =>
      exact Or.inr ⟨_, rfl, .clientEnds selecting (by simp [found]) early read⟩
    | .ready (.ok (c :: chunk)) =>
      exact Or.inr ⟨_, rfl, .upload selecting found (by simp) early read⟩

private theorem pollBackend_cases (r : Relay) (phase : RelayPhase) (first : Branch)
    (client backend : Option Arrival) (selecting : ∃ n, r.phase = .selecting n)
    (early : r.Woken → .backend ∈ first.beforeAction) :
    (pollBackend { r with phase := phase } backend = .pending { r with phase := phase } ∧
      r.socketPoll client backend .backend = .pending) ∨
    ∃ r', pollBackend { r with phase := phase } backend = .won r' ∧
      Effect zlib toLowercase r (.poll first client backend) r' := by
  have read := r.splice.backend.pollRead_remainder 8192 backend
  simp only [pollBackend]
  cases polled : r.splice.backend.pollRead 8192 backend with
  | mk result rest =>
    have found : r.socketPoll client backend .backend = result := by simp [socketPoll, polled]
    rw [polled] at read
    match result with
    | .pending => exact Or.inl ⟨rfl, found⟩
    | .ready (.error e) =>
      exact Or.inr ⟨_, rfl, .backendEnds selecting (by simp [found]) early read⟩
    | .ready (.ok []) =>
      exact Or.inr ⟨_, rfl, .backendEnds selecting (by simp [found]) early read⟩
    | .ready (.ok (c :: chunk)) =>
      exact Or.inr ⟨_, rfl, .download selecting found (by simp) early read⟩

private theorem pollAction_woken {r : Relay} (woken : r.Woken) :
    ∃ session, r.session = some session ∧
      r.pollAction zlib toLowercase = .won (r.acted zlib toLowercase session) := by
  obtain ⟨session, owned⟩ := Option.isSome_iff_exists.mp woken.1
  exact ⟨session, owned, by simp [pollAction, owned, woken.2, acted]⟩

private theorem pollAction_asleep {r : Relay} (asleep : ¬ r.Woken) {n : Option Bool}
    (selecting : r.phase = .selecting n) :
    ∃ m, r.pollAction zlib toLowercase = .pending { r with phase := .selecting m } ∧
      (r.phase = .selecting m ∨ r.phase = .selecting none ∧ m = some false) := by
  obtain ⟨splice, session, pendingAction, traffic, phase, taken, injected⟩ := r
  cases selecting
  cases session with
  | none => exact ⟨n, rfl, Or.inl rfl⟩
  | some session =>
    match n with
    | none => exact ⟨some false, rfl, Or.inr ⟨rfl, rfl⟩⟩
    | some false => exact ⟨some false, rfl, Or.inl rfl⟩
    | some true => exact absurd ⟨rfl, rfl⟩ asleep

/-- One poll of the task. -/
theorem poll_effect {r : Relay} {n : Option Bool} (selecting : r.phase = .selecting n)
    (first : Branch) (client backend : Option Arrival) :
    Effect zlib toLowercase r (.poll first client backend)
      (pollBranches zlib toLowercase client backend r first.rotation) := by
  -- the third branch may change the phase before a socket is polled, hence any `phase` here
  have clientPoll := fun phase => @pollClient_cases zlib toLowercase r phase first client backend
    ⟨n, selecting⟩
  have backendPoll := fun phase => @pollBackend_cases zlib toLowercase r phase first client
    backend ⟨n, selecting⟩
  cases first with
  | client =>
    simp only [Branch.rotation, pollBranches, pollBranch]
    obtain ⟨idle, noUpload⟩ | ⟨r', won, effect⟩ :=
      clientPoll r.phase (by simp [Branch.beforeAction])
    · simp only [idle]
      obtain ⟨idle, noDownload⟩ | ⟨r', won, effect⟩ :=
        backendPoll r.phase (by simp [Branch.beforeAction])
      · simp only [idle]
        by_cases woken : r.Woken
        · obtain ⟨session, owned, won⟩ := @pollAction_woken zlib toLowercase r woken
          simp only [won]
          refine .act ⟨woken, ?_⟩ owned
          simp [Branch.beforeAction, noUpload, noDownload]
        · obtain ⟨m, pending, created⟩ := @pollAction_asleep zlib toLowercase r woken n selecting
          simp only [pending]
          exact .wait woken created
      · simp only [won]
        exact effect
    · simp only [won]
      exact effect
  | backend =>
    simp only [Branch.rotation, pollBranches, pollBranch]
    obtain ⟨idle, noDownload⟩ | ⟨r', won, effect⟩ :=
      backendPoll r.phase (by simp [Branch.beforeAction])
    · simp only [idle]
      by_cases woken : r.Woken
      · obtain ⟨session, owned, won⟩ := @pollAction_woken zlib toLowercase r woken
        simp only [won]
        exact .act ⟨woken, by simp [Branch.beforeAction, noDownload]⟩ owned
      · obtain ⟨m, pending, created⟩ := @pollAction_asleep zlib toLowercase r woken n selecting
        simp only [pending]
        obtain ⟨idle, -⟩ | ⟨r', won, effect⟩ := clientPoll (.selecting m) fun h => absurd h woken
        · simp only [idle]
          exact .wait woken created
        · simp only [won]
          exact effect
    · simp only [won]
      exact effect
  | action =>
    simp only [Branch.rotation, pollBranches, pollBranch]
    by_cases woken : r.Woken
    · obtain ⟨session, owned, won⟩ := @pollAction_woken zlib toLowercase r woken
      simp only [won]
      exact .act ⟨woken, by simp [Branch.beforeAction]⟩ owned
    · obtain ⟨m, pending, created⟩ := @pollAction_asleep zlib toLowercase r woken n selecting
      simp only [pending]
      obtain ⟨idle, -⟩ | ⟨r', won, effect⟩ := clientPoll (.selecting m) fun h => absurd h woken
      · simp only [idle]
        obtain ⟨idle, -⟩ | ⟨r', won, effect⟩ := backendPoll (.selecting m) fun h => absurd h woken
        · simp only [idle]
          exact .wait woken created
        · simp only [won]
          exact effect
      · simp only [won]
        exact effect

private theorem wrote_cases {w w' : Writer} {n : Nat} {phase phase' : RelayPhase}
    (took : wrote w n phase = some (w', phase')) :
    w' = w.push (max n 1) ∧
      (phase' = phase ∨ phase' = .selecting none ∧ (w.push (max n 1)).pending = []) := by
  simp only [wrote] at took
  split at took
  · cases took
  · simp only [Option.some.injEq, Prod.mk.injEq] at took
    obtain ⟨rfl, rfl⟩ := took
    refine ⟨rfl, ?_⟩
    split
    next done => exact Or.inr ⟨rfl, done⟩
    · exact Or.inl rfl

theorem step_effect {r r' : Relay} {e : RelayEvent}
    (stepped : r.step zlib toLowercase e = some r') : Effect zlib toLowercase r e r' := by
  cases e with
  | poll first client backend =>
    simp only [step] at stepped
    split at stepped
    next n selecting =>
      rw [← Option.some.inj stepped]
      exact poll_effect selecting first client backend
    · cases stepped
  | wrote n =>
    simp only [step] at stepped
    split at stepped
    next writing =>
      obtain ⟨⟨w, phase⟩, took, rfl⟩ := Option.map_eq_some_iff.mp stepped
      obtain ⟨rfl, goesOn⟩ := wrote_cases took
      exact .uploaded writing goesOn
    next writing =>
      obtain ⟨⟨w, phase⟩, took, rfl⟩ := Option.map_eq_some_iff.mp stepped
      obtain ⟨rfl, goesOn⟩ := wrote_cases took
      exact .downloaded writing goesOn
    · cases stepped
  | writeFailed =>
    simp only [step] at stepped
    split at stepped
    next writing =>
      rw [← Option.some.inj stepped]
      exact .uploadFails writing
    next writing =>
      rw [← Option.some.inj stepped]
      exact .downloadFails writing
    · cases stepped
  | store action =>
    simp only [step] at stepped
    split at stepped
    · rw [← Option.some.inj stepped]
      exact .store
    · cases stepped
  | notify requested =>
    simp only [step] at stepped
    split at stepped
    next session n owned waiting =>
      rw [← Option.some.inj stepped]
      exact .wake ⟨n, waiting⟩ (by simp [owned])
    next session owned unheard =>
      rw [← Option.some.inj stepped]
      exact .missed fun ⟨n, waiting⟩ => unheard n waiting
    · cases stepped

/-- An action that wins is run. -/
theorem poll_acts {r : Relay} {first : Branch} {client backend : Option Arrival}
    (wins : r.ActionWins first client backend) :
    ∃ session, r.session = some session ∧
      r.step zlib toLowercase (.poll first client backend) =
        some (r.acted zlib toLowercase session) := by
  obtain ⟨woken, idle⟩ := wins
  have polled : r.step zlib toLowercase (.poll first client backend) =
      some (pollBranches zlib toLowercase client backend r first.rotation) := by
    simp only [step, woken.2]
  have effect := @poll_effect zlib toLowercase r _ woken.2 first client backend
  rw [polled]
  generalize pollBranches zlib toLowercase client backend r first.rotation = r' at effect
  -- any other outcome needs a socket that was ready before the wake-up
  cases effect with
  | wait asleep => exact absurd woken asleep
  | upload _ found _ early =>
    rw [idle _ (early woken)] at found
    cases found
  | download _ found _ early =>
    rw [idle _ (early woken)] at found
    cases found
  | clientEnds _ ready early => exact absurd (idle _ (early woken)) ready
  | backendEnds _ ready early => exact absurd (idle _ (early woken)) ready
  | act _ owned => exact ⟨_, owned, rfl⟩

/-- Every step only moves bytes. -/
theorem step_moves {r r' : Relay} {e : RelayEvent}
    (stepped : r.step zlib toLowercase e = some r') : r.splice.Moves r'.splice := by
  cases step_effect stepped with
  | upload _ _ _ _ read => exact Splice.moves_up read (Writer.handed_hand _ _)
  | download _ _ _ _ read => exact Splice.moves_down read (Writer.handed_hand _ _)
  | clientEnds _ _ _ read => exact Splice.moves_up read (List.append_nil _).symm
  | backendEnds _ _ _ read => exact Splice.moves_down read (List.append_nil _).symm
  | uploaded => exact Splice.moves_up (List.nil_append _) (by simp)
  | downloaded => exact Splice.moves_down (List.nil_append _) (by simp)
  | uploadFails => exact Splice.moves_up (List.nil_append _) (List.append_nil _).symm
  | downloadFails => exact Splice.moves_down (List.nil_append _) (List.append_nil _).symm
  | _ => exact Splice.moves_refl _

/-! ### The end of the relay -/

/-- After its end only the stored action can change. -/
theorem step_ended {r r' : Relay} {e : RelayEvent} (ended : r.phase = .ended)
    (stepped : r.step zlib toLowercase e = some r') :
    ∃ action, r' = { r with pendingAction := action } := by
  cases step_effect stepped with
  | wait _ created => simp [ended] at created
  | upload selecting => simp [ended] at selecting
  | download selecting => simp [ended] at selecting
  | clientEnds selecting => simp [ended] at selecting
  | backendEnds selecting => simp [ended] at selecting
  | act wins =>
    have selecting := wins.1.2
    simp [ended] at selecting
  | uploaded writing => simp [ended] at writing
  | downloaded writing => simp [ended] at writing
  | uploadFails writing => simp [ended] at writing
  | downloadFails writing => simp [ended] at writing
  | store => exact ⟨_, rfl⟩
  | wake waiting => simp [ended] at waiting
  | missed => exact ⟨_, rfl⟩

/-- Taking an action ends the relay. -/
def Final (r : Relay) : Prop := r.taken.isSome ∨ r.injected.isSome → r.phase = .ended

theorem final_step {r r' : Relay} {e : RelayEvent} (final : r.Final)
    (stepped : r.step zlib toLowercase e = some r') : r'.Final := by
  intro acted
  by_cases ended : r.phase = .ended
  · obtain ⟨action, rfl⟩ := step_ended ended stepped
    exact ended
  -- while the relay runs, only the third branch takes an action, and it ends it
  · cases step_effect stepped with
    | wait => exact absurd (final acted) ended
    | upload => exact absurd (final acted) ended
    | download => exact absurd (final acted) ended
    | uploaded => exact absurd (final acted) ended
    | downloaded => exact absurd (final acted) ended
    | store => exact final acted
    | wake => exact absurd (final acted) ended
    | missed => exact final acted
    | _ => rfl

theorem final_start (splice : Splice) (session : Option PlayerSession) :
    (start splice session).Final := by
  simp [Final, start]

end Relay

end MCGate
