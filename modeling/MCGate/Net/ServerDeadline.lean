import MCGate.Lib.Turns
import MCGate.Net.ServerAccounts

/-!
# The login deadline

With a login timeout, a client has until its deadline to send the PROXY header, the handshake
and the Login Start or the status request. It may send them as slowly as it likes, a byte at a
time or nothing: past the deadline no read waits for it any longer. Each step that is not a read
of these goes through at once, so a few turns after its deadline the connection has given back
its slot, if it was not proven to be a login.
-/
namespace MCGate.Server

open Config Machine Threads

/-- It reads what the client sends before its login is proven, or its status is asked for. -/
def Conn.waits : Conn → Bool
  | .readingHeader _ _ | .readingHandshake _ | .readingStatusRequest _ | .readingLoginStart _ =>
    true
  | _ => false

def Conn.isClosed : Conn → Bool
  | .closed _ => true
  | _ => false

/-- The slot has been given back, or there was none: the login is proven, or nothing more is
to be expected of the client. -/
def Conn.settled : Conn → Bool
  | .resolving _ | .dialing _ _ | .counting _ _ | .timing _ _ | .registeringVoice _ _
  | .sniffing _ _ _ | .relaying _ | .discounting _ | .unlisting _ | .recording _ _ _
  | .unregisteringVoice _ | .closing _ _ | .closed _ => true
  | .dropping _ guard _ => (guard.bind PreLoginGuard.slot).isNone
  | _ => false

/-- How many steps a connection makes at most until it is settled. -/
def Conn.stepsLeft : Conn → Nat
  | .accepted _ _ => 16
  | .checkingBan _ _ _ => 15
  | .acquiring _ _ _ .acquire => 14
  | .acquiring _ _ _ (.compare _) => 13
  | .acquiring _ _ _ .undo => 12
  | .acquiring _ _ _ _ => 11
  | .limitingRate _ => 10
  | .readingHeader _ _ => 9
  | .checkingBanAgain _ => 8
  | .reserving _ => 7
  | .readingHandshake _ => 6
  | .routing _ _ _ _ => 5
  | .checkingLimit _ => 4
  | .readingLoginStart _ | .readingStatusRequest _ => 3
  | .answeringStatus _ _ => 2
  | .offending _ _ _ _ => 2
  | _ => 1

/-- Its deadline, if it is still to be met, is `d`. -/
def Conn.Due (d : Instant) : Conn → Prop
  | .accepted _ _ | .checkingBan _ _ _ | .acquiring _ _ _ _ | .limitingRate _ => False
  | .readingHeader _ deadline => deadline = some d
  | .checkingBanAgain k | .reserving k => k.deadline = some d
  | .readingHandshake a | .routing a _ _ _ => a.deadline = some d
  | .readingStatusRequest r | .answeringStatus r _ | .checkingLimit r | .readingLoginStart r =>
    r.deadline = some d
  | _ => True

variable {s s' : Shared} {c c' : Conn} {choice : Choice} {toLowercase : Text → Text} {d : Instant}

private theorem settled_of_releasing {global : GlobalConnectionGuard} {guard : Option PreLoginGuard}
    {ending : Ending} (free : guard.bind PreLoginGuard.slot = none) :
    (Conn.dropping global guard ending).settled := by
  rw [Conn.settled, free]
  rfl

/-- A login leaves no slot behind. -/
theorem LoggedIn.settled (l : LoggedIn) (ending : Ending) :
    (Conn.dropping l.global (some l.guard) ending).settled :=
  settled_of_releasing (slot_of_released l.done)

private theorem slot_of_settled (settled : c.settled) :
    c.holdings.slot = none ∧ c.waits = false := by
  cases c with
  | dropping global guard ending =>
    exact ⟨Option.isNone_iff_eq_none.mp settled, rfl⟩
  | accepted | checkingBan | acquiring | limitingRate | readingHeader | checkingBanAgain
  | reserving | readingHandshake | routing | readingStatusRequest | answeringStatus
  | checkingLimit | readingLoginStart | provenReal | offending => cases settled
  | _ => exact ⟨rfl, rfl⟩

/-! ### Each step brings it nearer -/

private theorem step_nearer (stepped : c.Step toLowercase s choice s' c') :
    c'.settled ∨ c'.stepsLeft < c.stepsLeft := by
  cases stepped with
  | turnAway | reject | prove | resolve | connect | failOver | opened | time | noVoice
  | registerVoice | nameless | list | relayed | discount | unlisted | unlist | record | drop
  | release | uncounted | leaves => exact .inl rfl
  | unresolved l | unreachable l => exact .inl (l.settled _)
  | panicVoice l backend => exact .inl (l.settled _)
  | panicRelay v | silence v voice | silent v voice => exact .inl (v.toLoggedIn.settled _)
  | _ => exact .inr (by simp [Conn.offend, Conn.leave, Conn.stepsLeft])

/-- What is settled stays settled. -/
theorem step_settled (settled : c.settled) (stepped : c.Step toLowercase s choice s' c') :
    c'.settled := by
  cases stepped with
  | resolve | connect | failOver | opened | time | noVoice | registerVoice | nameless | list
  | relayed | discount | unlisted | unlist | record | drop | release | uncounted | leaves => rfl
  | unresolved l | unreachable l => exact l.settled _
  | panicVoice l backend => exact l.settled _
  | panicRelay v | silence v voice | silent v voice => exact v.toLoggedIn.settled _
  | _ => cases settled

/-! ### No step waits past the deadline -/

/-- The deadline stays what it is. -/
theorem step_due (due : c.Due d) (stepped : c.Step toLowercase s choice s' c') : c'.Due d := by
  cases stepped with
  | accept | pass | skipBan | uncapped | count | fits | exceeds | undo | enter | paced =>
    exact due.elim
  | header | direct | passClient | skipClient | reserve | route | status | login | request
  | unspent => exact due
  | _ => trivial

/-- The deadline ends a read that is still waiting. -/
theorem within_isSome {α : Type} {now : Instant} (late : d ≤ now) (poll : Poll α) :
    (within (some d) now poll).isSome := by
  cases poll with
  | ready value => rfl
  | pending => simp [within, late]

private theorem map_within_isSome {α β : Type} {deadline : Option Instant} {now : Instant}
    (due : deadline = some d) (late : d ≤ now) (poll : Poll α) (f : Option α → β) :
    ((within deadline now poll).map f).isSome := by
  rw [due, Option.isSome_map]
  exact within_isSome late poll

private theorem isSome_orElse {α : Type} {x y : Option α} :
    (x <|> y).isSome ↔ x.isSome ∨ y.isSome := by
  cases x <;> simp

/-- Past its deadline a connection never has to wait. -/
theorem advance_isSome (due : c.Due d) (late : d ≤ choice.now) (live : c.isClosed = false) :
    (c.advance toLowercase s choice).isSome := by
  -- a read that waits ends with the deadline, and every other step goes through
  rw [Conn.advance, isSome_orElse, isSome_orElse, isSome_orElse]
  cases c with
  | accepted | checkingBan | acquiring | limitingRate => exact due.elim
  | readingHeader o deadline =>
    left
    simp only [Conn.advanceFront]
    split
    · exact map_within_isSome due late _ _
    · rfl
  | checkingBanAgain k =>
    left
    simp only [Conn.advanceFront]
    split <;> rfl
  | reserving k => exact .inl rfl
  | readingHandshake a => exact .inr (.inl (map_within_isSome due late _ _))
  | readingStatusRequest r => exact .inr (.inl (map_within_isSome due late _ _))
  | readingLoginStart r => exact .inr (.inl (map_within_isSome due late _ _))
  | routing | answeringStatus | checkingLimit | provenReal => exact .inr (.inl rfl)
  | dialing l backends =>
    right; right; left
    cases backends <;> rfl
  | registeringVoice l backend =>
    right; right; left
    simp only [Conn.advanceLogin]
    split
    · rfl
    · split
      · rfl
      · split <;> rfl
  | sniffing l backend voice =>
    right; right; left
    simp only [Conn.advanceLogin]
    split <;> rfl
  | unlisting v =>
    right; right; left
    simp only [Conn.advanceLogin]
    split <;> rfl
  | resolving | counting | timing | relaying | discounting | recording | unregisteringVoice =>
    exact .inr (.inr (.inl rfl))
  | offending | dropping | closing => exact .inr (.inr (.inr rfl))
  | closed ending => cases live

/-! ### In a run -/

/-- The party is a connection of which `p` holds. -/
def Party.On (p : Conn → Prop) : Party → Prop
  | .connection conn => p conn
  | _ => False

def Party.settled : Party → Bool
  | .connection conn => conn.settled
  | _ => true

def Party.stepsLeft : Party → Nat
  | .connection conn => conn.stepsLeft
  | _ => 0

variable {party party' : Party}

private theorem party_due (due : party.On (Conn.Due d))
    (moved : party.advance toLowercase s choice = some (s', party')) :
    party'.On (Conn.Due d) := by
  cases party with
  | connection conn =>
    obtain ⟨⟨_, conn'⟩, stepped, same⟩ := Option.map_eq_some_iff.mp moved
    cases same
    exact step_due due (Conn.step_of_advance stepped)
  | calls operation => cases due
  | returned operation => cases due

private theorem party_nearer (moved : party.advance toLowercase s choice = some (s', party')) :
    party'.settled ∨ party'.stepsLeft < party.stepsLeft := by
  cases party with
  | connection conn =>
    obtain ⟨⟨_, conn'⟩, stepped, same⟩ := Option.map_eq_some_iff.mp moved
    cases same
    exact step_nearer (Conn.step_of_advance stepped)
  | calls operation =>
    cases moved
    exact .inl rfl
  | returned operation => cases moved

private theorem party_settled (settled : party.settled)
    (moved : party.advance toLowercase s choice = some (s', party')) : party'.settled := by
  cases party with
  | connection conn =>
    obtain ⟨⟨_, conn'⟩, stepped, same⟩ := Option.map_eq_some_iff.mp moved
    cases same
    exact step_settled settled (Conn.step_of_advance stepped)
  | calls operation =>
    cases moved
    rfl
  | returned operation => cases moved

private theorem stepsLeft_pos (c : Conn) : 0 < c.stepsLeft := by
  cases c with
  | acquiring peer stream cfg task => cases task <;> simp [Conn.stepsLeft]
  | _ => simp [Conn.stepsLeft]

/-- The time a client has, from the moment at which it has passed the limits of its IP. -/
def loginDeadline (cfg : GateConfig) (now : Instant) : Instant :=
  now + fromMillis cfg.loginTimeoutMillis

/-- As many turns as a connection needs at most once its deadline is set. -/
def turnsPastDeadline : Nat := 9

private theorem limitingRate_due {o : Opened} (limited : 0 < o.cfg.loginTimeoutMillis)
    (stepped : (Conn.limitingRate o).Step toLowercase s choice s' c') :
    c'.Due (loginDeadline o.cfg choice.now) ∧ c'.stepsLeft ≤ turnsPastDeadline := by
  cases stepped with
  | paced =>
    refine ⟨?_, Nat.le_refl _⟩
    rw [Conn.Due, Conn.deadlineFrom, if_pos limited, loginDeadline]
  | throttle => exact ⟨trivial, by simp [Conn.stepsLeft, turnsPastDeadline]⟩

/-- A client that stalls is dropped at its deadline. However the other parties move in between,
from the deadline on the connection can make a step whenever it has a turn, and after a few
turns it has no slot and waits for nothing more that comes before a login. -/
theorem stalled_client_dropped {gate opened last : Gate} {i : Nat} {o : Opened} {choice : Choice}
    {events : List (Event Party Choice)}
    (limiting : gate.threads[i]? = some (.connection (.limitingRate o)))
    (limited : 0 < o.cfg.loginTimeoutMillis)
    (turn : Gate.step toLowercase gate (.move i choice) = some opened)
    (ran : run (Gate.step toLowercase) opened events = some last) :
    ∃ conn, last.threads[i]? = some (.connection conn) ∧
      (∀ late : Choice, loginDeadline o.cfg choice.now ≤ late.now → conn.isClosed = false →
        (Gate.step toLowercase last (.move i late)).isSome) ∧
      (turnsPastDeadline ≤ turns i events → conn.holdings.slot = none ∧ conn.waits = false) := by
  obtain ⟨_, s', party', at_i, moved, rfl⟩ := step_move_eq_some.mp turn
  cases limiting.symm.trans at_i
  obtain ⟨⟨_, conn'⟩, stepped, same⟩ := Option.map_eq_some_iff.mp moved
  cases same
  obtain ⟨due, few⟩ := limitingRate_due limited (Conn.step_of_advance stepped)
  have here : (gate.threads.set i (.connection conn'))[i]? = some (.connection conn') :=
    List.getElem?_set_self (List.getElem?_eq_some_iff.mp limiting).1
  -- the deadline stays with the connection, and each turn brings it nearer to its end
  have stays := @run_own _ _ _ Party.fresh (Party.advance toLowercase) i ⟨s', _⟩ last _
    (Party.On (Conn.Due (loginDeadline o.cfg choice.now)))
    (fun _ _ _ _ _ => party_due) events here due ran
  have nearer := @run_turns _ _ _ Party.fresh (Party.advance toLowercase) i ⟨s', _⟩ last _
    Party.stepsLeft (fun party => party.settled) (fun _ _ _ _ _ _ => party_nearer)
    (fun _ _ _ _ _ => party_settled) events here ran
  obtain ⟨party, at_last, onDue⟩ := stays
  obtain ⟨_, same, reached⟩ := nearer
  cases at_last.symm.trans same
  cases party with
  | connection conn =>
    refine ⟨conn, at_last, fun late after live => ?_, fun enough => slot_of_settled ?_⟩
    · have able : (conn.advance toLowercase last.shared late).isSome :=
        advance_isSome onDue after live
      obtain ⟨⟨s'', conn''⟩, goes⟩ := Option.isSome_iff_exists.mp able
      refine Option.isSome_iff_exists.mpr ⟨_, step_move_eq_some.mpr
        ⟨_, s'', .connection conn'', at_last, ?_, rfl⟩⟩
      simp only [Party.advance, goes, Option.map_some]
    · refine reached.resolve_right fun bound => ?_
      have left := stepsLeft_pos conn
      simp only [Party.stepsLeft] at bound
      omega
  | calls operation => cases onDue
  | returned operation => cases onDue

/-- A client that has been let in and sends a handshake, and nothing behind it. -/
def silent : Opened where
  peer := ⟨.v4 ⟨203, 0, 113, 9⟩, 40000⟩
  stream := encodeHandshake 767 "play.example.com".toList 25565 2
  cfg := { routes := [⟨[⟨['*'], ['*'], 1⟩], [], .sequential, 0, none, false, false, 0,
    { enabled := false }, [], [], none⟩] }
  global := ⟨false⟩

def opening : Gate :=
  ⟨{ Server.start silent.cfg {} with global := ⟨1⟩ }, [.connection (.limitingRate silent)]⟩

/-- It gets as far as the Login Start, and its last turns come after an hour. -/
def overdue : List (Event Party Choice) :=
  List.replicate 5 (.move 0 { now := 0, arrivals := List.replicate 30 (.ready 1) }) ++
    List.replicate 4 (.move 0 { now := 3600 * nanosPerSecond })

/-- It is dropped, and has no slot. -/
theorem stalled_client_dropped_silent :
    ∃ opened last : Gate, ∃ conn, Gate.step id opening (.move 0 { now := 0 }) = some opened ∧
      run (Gate.step id) opened overdue = some last ∧
      last.threads[0]? = some (.connection conn) ∧
      conn.holdings.slot = none ∧ conn.waits = false := by
  have ran : ((Gate.step id opening (.move 0 { now := 0 })).bind fun opened =>
      run (Gate.step id) opened overdue).isSome := by decide +kernel
  obtain ⟨last, ran⟩ := Option.isSome_iff_exists.mp ran
  obtain ⟨opened, turn, ran⟩ := Option.bind_eq_some_iff.mp ran
  obtain ⟨conn, at_last, -, dropped⟩ :=
    stalled_client_dropped (o := silent) rfl (by decide) turn ran
  exact ⟨opened, last, conn, turn, ran, at_last, dropped (by decide)⟩

end MCGate.Server
