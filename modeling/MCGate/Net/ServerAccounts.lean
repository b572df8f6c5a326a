import MCGate.Lib.Tally
import MCGate.Net.ServerSteps

/-!
# Nothing is left behind

Every connection holds a part of the tables: its place under the global cap, its pre-login slot,
its count at a backend, its voice entry and its session. `holdings` reads that part off the
place where the connection stands, and `Effect` says what a step can do: take one item, give one
back, or neither. So the tables always account for the connections there are, whichever way
out each of them takes, and for what a login that has panicked still has there. When all have
ended and none has panicked, the tables are as they were at the start.
-/
namespace MCGate

def GuardTask.counts (task : GuardTask) : Bool := task.holds || task.pending

/-- The IP whose slot the guard has. -/
def PreLoginGuard.slot (self : PreLoginGuard) : Option Text :=
  if self.released then none else self.ip

namespace Server

open Config Machine Threads Tally HashMap

/-- What a connection has in the tables. -/
structure Holdings where
  /-- it is counted among the open connections -/
  connection : Bool := false
  /-- the IP whose pre-login slot it has -/
  slot : Option Text := none
  /-- where it is counted as connected -/
  counted : Option (Nat × SocketAddr) := none
  /-- the IP for which it has registered a voice route -/
  voice : Option Text := none
  /-- the session it has put -/
  listed : Option SessionArc := none
  /-- the session it has given to the tracker -/
  recorded : Option SessionArc := none

def Opened.holdings (o : Opened) : Holdings := { connection := !o.global.released }

def Known.holdings (k : Known) : Holdings := { connection := !k.global.released }

def Admitted.holdings (a : Admitted) : Holdings :=
  { connection := !a.global.released, slot := a.guard.slot }

/-- Behind Login Start there is no slot. -/
def LoggedIn.holdings (l : LoggedIn) : Holdings := { connection := !l.global.released }

/-- While its runtime counts it. -/
def LoggedIn.connected (l : LoggedIn) (backend : SocketAddr) : Holdings :=
  { l.holdings with counted := l.runtime.map fun arc => (arc, backend) }

def voiceIp (l : LoggedIn) (voice : Bool) : Option Text :=
  if voice then some (ipString l.addr) else none

/-- While it is relayed. -/
def Served.holdings (v : Served) : Holdings :=
  { v.connected v.backend with voice := voiceIp v.toLoggedIn v.voice, listed := v.session }

/-- What is still in the tables when it has ended. -/
def Ending.holdings (ending : Ending) : Holdings where
  counted := ending.abandoned.bind fun v => v.runtime.map fun arc => (arc, v.backend)
  voice := ending.abandoned.bind fun v => voiceIp v.toLoggedIn v.voice
  listed := ending.abandoned.bind Served.session
  recorded := ending.session

def Conn.holdings : Conn → Holdings
  | .accepted _ _ | .checkingBan _ _ _ => {}
  | .acquiring _ _ _ task => { connection := task.counts }
  | .limitingRate o | .readingHeader o _ => o.holdings
  | .checkingBanAgain k | .reserving k => k.holdings
  | .readingHandshake a | .routing a _ _ _ => a.holdings
  | .readingStatusRequest r | .answeringStatus r _ | .checkingLimit r | .readingLoginStart r
  | .provenReal r _ => r.toAdmitted.holdings
  | .resolving l | .dialing l _ | .counting l _ => l.holdings
  | .timing l backend | .registeringVoice l backend => l.connected backend
  | .sniffing l backend voice => { l.connected backend with voice := voiceIp l voice }
  | .relaying v | .discounting v => v.holdings
  | .unlisting v => { v.holdings with counted := none }
  | .recording v _ _ => { v.holdings with counted := none, listed := none }
  | .unregisteringVoice v =>
    { v.holdings with counted := none, listed := none, recorded := v.session }
  | .offending _ _ global guard =>
    { connection := !global.released, slot := guard.bind PreLoginGuard.slot }
  | .dropping global guard ending =>
    { ending.holdings with
      connection := !global.released, slot := guard.bind PreLoginGuard.slot }
  | .closing global ending => { ending.holdings with connection := !global.released }
  | .closed ending => ending.holdings

def Party.holdings : Party → Holdings
  | .connection conn => conn.holdings
  | _ => {}

/-- What a step can do to the tables and to what the party has in them. -/
inductive Effect (s : Shared) (h : Holdings) : Shared → Holdings → Prop
  /-- tables that count no one -/
  | aside (app : AppState) (bans : IpBanList) (rates : ConnectionRates) :
    Effect s h { s with app, bans, rates } h
  | countUp (before : h.connection = false) :
    Effect s h { s with global := ⟨s.global.count + 1⟩ } { h with connection := true }
  | countDown (before : h.connection = true) :
    Effect s h { s with global := ⟨s.global.count - 1⟩ } { h with connection := false }
  | reserve (ip : Text) (before : h.slot = none) :
    Effect s h { s with preLogin := ⟨s.preLogin.counts.countUp ip⟩ } { h with slot := some ip }
  | refuse (preLogin : PreLoginConnections)
      (same : ∀ ip, preLogin.counts.lookup ip = s.preLogin.counts.lookup ip) :
    Effect s h { s with preLogin } h
  | giveBack (ip : Text) (before : h.slot = some ip) :
    Effect s h { s with preLogin := ⟨s.preLogin.counts.countDown ip⟩ } { h with slot := none }
  | connect (arc : Nat) (addr : SocketAddr) (before : h.counted = none) :
    Effect s h
      { s with
        runtimes := Function.update s.runtimes arc ((s.runtimes arc).recordConnectOpened addr) }
      { h with counted := some (arc, addr) }
  | measure (runtimes : Nat → RouteRuntime)
      (same : ∀ arc, (runtimes arc).activeConnections = (s.runtimes arc).activeConnections) :
    Effect s h { s with runtimes } h
  | disconnect (arc : Nat) (addr : SocketAddr) (before : h.counted = some (arc, addr)) :
    Effect s h
      { s with
        runtimes := Function.update s.runtimes arc ((s.runtimes arc).recordConnectClosed addr) }
      { h with counted := none }
  | register (now : Instant) (ip host : Text) (backend : SocketAddr) (before : h.voice = none) :
    Effect s h { s with voice := s.voice.register now ip host backend } { h with voice := some ip }
  | unregister (ip : Text) (before : h.voice = some ip) :
    Effect s h { s with voice := (s.voice.unregister ip).1 } { h with voice := none }
  /-- entries of the routing table are read, touched or dropped by others -/
  | voice (voice : VoiceRouting) (fewer : ∀ ip entry, voice.get ip = some entry →
      ∃ old, s.voice.get ip = some old ∧ entry.refs = old.refs) :
    Effect s h { s with voice } h
  | list (session : SessionArc) (nextPtr : Nat) (before : h.listed = none) :
    Effect s h { s with sessions := s.sessions.put session, nextPtr }
      { h with listed := some session }
  | unlist (session : SessionArc) (before : h.listed = some session) :
    Effect s h { s with sessions := s.sessions.remove session.session.uuid }
      { h with listed := none }
  | record (session : SessionArc) (before : h.recorded = none) :
    Effect s h { s with recorded := session :: s.recorded } { h with recorded := some session }

/-- Nothing happens. -/
theorem Effect.quiet (s : Shared) (h : Holdings) : Effect s h s h :=
  .aside s.app s.bans s.rates

variable {s s' : Shared} {c c' : Conn} {choice : Choice} {toLowercase : Text → Text}

/-! ### What a step does -/

/-- What the pre-login table does for a connection that asks for a slot. -/
theorem acquire_effect (positive : s.preLogin.counts.Positive) (ip : Text) (cap : UInt32)
    (h : Holdings) (free : h.slot = none) :
    Effect s h { s with preLogin := (PreLoginGuard.acquire s.preLogin (some ip) cap).1 }
      { h with
        slot := ((PreLoginGuard.acquire s.preLogin (some ip) cap).2.bind PreLoginGuard.slot) } := by
  rcases @PreLogin.acquire_cases ⟨s.preLogin, []⟩ positive (some ip) cap with
    ⟨-, unlimited⟩ | ⟨_, -, same, -, granted⟩ | ⟨_, preLogin, -, -, -, refused, same⟩
  · simp only [unlimited]
    have none_held : { h with slot := Option.bind (some ⟨none, true⟩) PreLoginGuard.slot } = h := by
      simp [PreLoginGuard.slot, ← free]
    rw [none_held]
    exact .quiet s h
  · cases same
    simp only [granted]
    exact .reserve ip free
  · simp only [refused]
    have none_held : { h with slot := Option.bind none PreLoginGuard.slot } = h := by
      simp [← free]
    rw [none_held]
    exact .refuse preLogin same

private theorem release_effect (guard : PreLoginGuard) (h : Holdings) (held : h.slot = guard.slot) :
    Effect s h { s with preLogin := (guard.release s.preLogin).1 } { h with slot := none } := by
  obtain ⟨ip, released⟩ := guard
  have free (none_held : h.slot = none) : { h with slot := none } = h := by rw [← none_held]
  cases released with
  | true =>
    rw [free held]
    exact .quiet s h
  | false =>
    cases ip with
    | none =>
      rw [free held]
      exact .quiet s h
    | some ip => exact .giveBack ip held

theorem slot_of_released {guard : PreLoginGuard} (done : guard.released = true) :
    guard.slot = none := if_pos done

/-- A login has no slot to give back on its way out. -/
theorem holdings_dropping (l : LoggedIn) (ending : Ending) :
    (Conn.dropping l.global (some l.guard) ending).holdings =
      { ending.holdings with connection := !l.global.released } := by
  have free : (some l.guard).bind PreLoginGuard.slot = none := slot_of_released l.done
  simp only [Conn.holdings, free]
  rfl

/-- What a login that panics had in the tables it still has there. -/
theorem holdings_abandon (v : Served) : (Conn.abandon v).holdings = v.holdings :=
  holdings_dropping v.toLoggedIn { addr := v.addr, abandoned := some v }

private theorem opened_effect (l : LoggedIn) (backend : SocketAddr) :
    Effect s l.holdings
      (Conn.updateRuntime s l.runtime fun runtime => runtime.recordConnectOpened backend)
      (l.connected backend) := by
  unfold LoggedIn.connected
  cases l.runtime with
  | none => exact .quiet _ _
  | some arc => exact .connect arc backend rfl

private theorem measured_effect (runtime : Option Nat) (now : Instant) (backend : SocketAddr)
    (latency : Int64) (h : Holdings) :
    Effect s h (Conn.updateRuntime s runtime fun runtime =>
      runtime.recordLatency now backend latency) h := by
  cases runtime with
  | none => exact .quiet _ _
  | some arc =>
    refine .measure _ fun other => ?_
    rw [Function.update_apply]
    split
    next same => rw [same]; rfl
    next => rfl

private theorem discounted_effect (v : Served) :
    Effect s v.holdings
      (Conn.updateRuntime s v.runtime fun runtime => runtime.recordConnectClosed v.backend)
      { v.holdings with counted := none } := by
  cases runtime : v.runtime with
  | none =>
    have uncounted : { v.holdings with counted := none } = v.holdings := by
      simp [Served.holdings, LoggedIn.connected, runtime]
    rw [uncounted]
    exact .quiet _ _
  | some arc =>
    refine .disconnect arc v.backend ?_
    simp [Served.holdings, LoggedIn.connected, runtime]

theorem step_effect (positive : s.preLogin.counts.Positive)
    (stepped : c.Step toLowercase s choice s' c') : Effect s c.holdings s' c'.holdings := by
  -- the steps that touch no table come last, in one case
  cases stepped with
  | turnAway | pass | turnClientAway | passClient | violate => exact .aside s.app _ s.rates
  | paced | throttle => exact .aside s.app s.bans _
  | count => exact .countUp rfl
  | undo => exact .countDown rfl
  | enter peer stream cfg global =>
    obtain ⟨released⟩ := global
    cases released <;> exact .quiet _ _
  | reserve k preLogin guard granted =>
    have asked := acquire_effect positive (ipString k.addr)
      (UInt32.ofNat k.cfg.maxConnectionsPerIp.toInt.toNat) k.holdings rfl
    rw [granted] at asked
    exact asked
  | refuse k preLogin refused =>
    have asked := acquire_effect positive (ipString k.addr)
      (UInt32.ofNat k.cfg.maxConnectionsPerIp.toInt.toNat) k.holdings rfl
    rw [refused] at asked
    exact asked
  | prove r player => exact release_effect r.guard r.toAdmitted.holdings rfl
  | unresolved l | unreachable l =>
    rw [Conn.giveUp, holdings_dropping]
    exact .quiet _ _
  | opened l backend => exact opened_effect l backend
  | time l backend => exact measured_effect l.runtime choice.now backend choice.latency _
  | registerVoice l backend voiceBackend => exact .register choice.now _ _ _ rfl
  | list l backend voice session => exact .list _ _ rfl
  | panicVoice | panicRelay =>
    rw [holdings_abandon]
    exact .quiet _ _
  | discount v => exact discounted_effect v
  -- a player without a session was never listed, and is not recorded
  | unlisted v nobody =>
    have same : Conn.holdings (.unregisteringVoice v) = Conn.holdings (.unlisting v) := by
      simp [Conn.holdings, Served.holdings, LoggedIn.connected, LoggedIn.holdings, nobody]
    rw [same]
    exact .quiet _ _
  | unlist v session own => exact .unlist session own
  | record v session own =>
    have recorded : Conn.holdings (.unregisteringVoice v) =
        { Conn.holdings (.recording v session own) with recorded := some session } := by
      simp [Conn.holdings, own]
    rw [recorded]
    exact .record session rfl
  | silence v voice =>
    rw [holdings_dropping]
    refine .unregister (ipString v.addr) ?_
    simp [Conn.holdings, Served.holdings, voiceIp, voice]
  | silent v voice =>
    have same : Conn.holdings (.unregisteringVoice v) =
        { connection := !v.global.released, recorded := v.session } := by
      simp [Conn.holdings, Served.holdings, LoggedIn.connected, LoggedIn.holdings, voiceIp, voice]
    rw [holdings_dropping, same]
    exact .quiet _ _
  | release global guard ending => exact release_effect guard _ rfl
  | leaves ending => exact .countDown rfl
  | _ => exact .quiet _ _

/-- The calls of the other parties hold nothing and count no one. -/
theorem apply_effect (now : Instant) (operation : Operation) :
    Effect s {} (operation.apply s now) {} := by
  cases operation with
  | setConfig newConfig => exact .aside _ s.bans s.rates
  | ban ip duration => exact .aside s.app _ s.rates
  | unban ip => exact .aside s.app _ s.rates
  | sweepBans => exact .aside s.app _ s.rates
  | sweepRates => exact .aside s.app s.bans _
  | resolveVoice clientIp =>
    refine .voice _ fun ip entry stored => ?_
    have refs := VoiceRouting.refs_resolve s.voice now clientIp ip
    rw [stored] at refs
    obtain ⟨old, before, same⟩ := Option.map_eq_some_iff.mp refs.symm
    exact ⟨old, before, same.symm⟩
  | evictIdleVoice =>
    refine .voice _ fun ip entry stored => ?_
    rw [VoiceRouting.get_evictIdle, Option.filter_eq_some_iff] at stored
    exact ⟨entry, stored.1, rfl⟩

theorem party_effect {party party' : Party} (positive : s.preLogin.counts.Positive)
    (moved : party.advance toLowercase s choice = some (s', party')) :
    Effect s party.holdings s' party'.holdings := by
  cases party with
  | connection conn =>
    obtain ⟨⟨_, conn'⟩, step, same⟩ := Option.map_eq_some_iff.mp moved
    cases same
    exact step_effect positive (Conn.step_of_advance step)
  | calls operation =>
    cases moved
    exact apply_effect choice.now operation
  | returned operation => cases moved

/-! ### Voice entries -/

end Server

namespace VoiceRouting

/-- A registration counts one more, unless the count wraps. -/
theorem refs_register_le (self : VoiceRouting) (ip : Text) :
    (((self.get ip).map Entry.refs).getD 0 + 1).toNat ≤
      (((self.get ip).map Entry.refs).getD 0).toNat + 1 := by
  rw [UInt32.toNat_add]
  exact Nat.mod_le _ _

private theorem get_unregister_ne (self : VoiceRouting) {ip other : Text} (apart : other ≠ ip) :
    (self.unregister ip).1.get other = self.get other := by
  unfold unregister
  split
  · rw [get, HashMap.lookup_erase_eq, if_neg apart, get]
  · split
    · rw [get, HashMap.lookup_insert_eq, if_neg apart, get]
    · rw [get, HashMap.lookup_erase_eq, if_neg apart, get]

/-- An entry that outlives an `unregister` had another registration. -/
theorem get_unregister_self {self : VoiceRouting} {ip : Text} {entry : Entry}
    (stored : (self.unregister ip).1.get ip = some entry) :
    ∃ held, self.get ip = some held ∧ entry.refs.toNat + 1 = held.refs.toNat ∧
      0 < entry.refs.toNat := by
  unfold unregister at stored
  split at stored
  · rw [get, HashMap.lookup_erase_eq, if_pos rfl] at stored
    cases stored
  next held found =>
    split at stored
    next several =>
      have more : 1 < held.refs.toNat := UInt32.lt_iff_toNat_lt.mp several
      have one : (held.refs - 1).toNat = held.refs.toNat - 1 :=
        UInt32.toNat_sub_of_le _ _ (UInt32.le_of_lt several)
      rw [get, HashMap.lookup_insert_eq, if_pos rfl] at stored
      cases stored
      dsimp only
      exact ⟨held, found, by omega, by omega⟩
    · rw [get, HashMap.lookup_erase_eq, if_pos rfl] at stored
      cases stored

end VoiceRouting

namespace Server

open Config Machine Threads Tally HashMap

variable {s s' : Shared} {choice : Choice} {toLowercase : Text → Text}

/-! ### What the tables account for -/

/-- The tables account for the parties `others`, and for one that holds `h`. -/
structure AccountsWith (s : Shared) (h : Holdings) (others : Multiset Holdings) : Prop where
  global : s.global.count = others.countP (·.connection) + h.connection.toNat
  slots : s.preLogin.counts.Tallies fun ip => tally (·.slot) others ip + share h.slot ip
  active : ∀ arc, (s.runtimes arc).activeConnections.Tallies fun addr =>
    tally (·.counted) others (arc, addr) + share h.counted (arc, addr)
  refs : ∀ ip entry, s.voice.get ip = some entry →
    entry.refs.toNat ≤ tally (·.voice) others ip + share h.voice ip ∧
      0 < tally (·.voice) others ip + share h.voice ip
  keyed : ∀ uuid session, s.sessions.get uuid = some session → session.session.uuid = uuid
  listed : ∀ uuid session, s.sessions.get uuid = some session →
    0 < tally (·.listed) others session + share h.listed session
  recorded : ∀ session, s.recorded.count session =
    tally (·.recorded) others session + share h.recorded session

variable {h h' : Holdings} {others : Multiset Holdings}

namespace AccountsWith

theorem countUp (accounts : AccountsWith s h others) (before : h.connection = false) :
    AccountsWith { s with global := ⟨s.global.count + 1⟩ } { h with connection := true }
      others := by
  refine { accounts with global := ?_ }
  have count := accounts.global
  rw [before] at count
  dsimp only
  rw [count]
  rfl

theorem countDown (accounts : AccountsWith s h others) (before : h.connection = true) :
    AccountsWith { s with global := ⟨s.global.count - 1⟩ } { h with connection := false }
      others := by
  refine { accounts with global := ?_ }
  have count := accounts.global
  rw [before] at count
  dsimp only
  rw [count]
  simp

theorem reserve (accounts : AccountsWith s h others) {ip : Text} (before : h.slot = none) :
    AccountsWith { s with preLogin := ⟨s.preLogin.counts.countUp ip⟩ } { h with slot := some ip }
      others := by
  refine { accounts with slots := ?_ }
  have slots := accounts.slots
  rw [before] at slots
  exact slots.countUp

theorem giveBack (accounts : AccountsWith s h others) {ip : Text} (before : h.slot = some ip) :
    AccountsWith { s with preLogin := ⟨s.preLogin.counts.countDown ip⟩ } { h with slot := none }
      others := by
  refine { accounts with slots := ?_ }
  have slots := accounts.slots
  rw [before] at slots
  exact slots.countDown

theorem connect (accounts : AccountsWith s h others) {arc : Nat} {addr : SocketAddr}
    (before : h.counted = none) :
    AccountsWith
      { s with
        runtimes := Function.update s.runtimes arc ((s.runtimes arc).recordConnectOpened addr) }
      { h with counted := some (arc, addr) } others := by
  refine { accounts with active := fun other => ?_ }
  have tallies := accounts.active other
  rw [before] at tallies
  dsimp only
  rw [Function.update_apply]
  split
  next same =>
    subst same
    refine Tallies.congr (tallies.countUp : Tallies (HashMap.countUp _ addr) _) fun key => ?_
    simp only [share_some, Prod.mk.injEq, true_and]
  next apart =>
    refine tallies.congr fun key => ?_
    simp only [share_some, Prod.mk.injEq, apart, false_and, if_false, share_none]

theorem disconnect (accounts : AccountsWith s h others) {arc : Nat} {addr : SocketAddr}
    (before : h.counted = some (arc, addr)) :
    AccountsWith
      { s with
        runtimes := Function.update s.runtimes arc ((s.runtimes arc).recordConnectClosed addr) }
      { h with counted := none } others := by
  refine { accounts with active := fun other => ?_ }
  have tallies := accounts.active other
  rw [before] at tallies
  dsimp only
  rw [Function.update_apply]
  split
  next same =>
    subst same
    refine Tallies.countDown (tallies.congr fun key => ?_)
    simp only [share_some, Prod.mk.injEq, true_and]
  next apart =>
    refine tallies.congr fun key => ?_
    simp only [share_some, Prod.mk.injEq, apart, false_and, if_false, share_none]

theorem register (accounts : AccountsWith s h others) (now : Instant) {ip : Text} (host : Text)
    (backend : SocketAddr) (before : h.voice = none) :
    AccountsWith { s with voice := s.voice.register now ip host backend }
      { h with voice := some ip } others := by
  refine { accounts with refs := fun other entry stored => ?_ }
  have refs := accounts.refs
  rw [VoiceRouting.get_register] at stored
  dsimp only at stored ⊢
  rw [before] at refs
  rw [share_some]
  split at stored
  next same =>
    cases stored
    -- the new count may wrap to less, but never exceeds the connections
    have wraps := s.voice.refs_register_le ip
    rw [same, if_pos rfl]
    dsimp only
    refine ⟨Nat.le_trans wraps (Nat.succ_le_succ ?_), by omega⟩
    cases old : s.voice.get ip with
    | none => exact Nat.zero_le _
    | some entry => exact (refs ip entry old).1
  next apart =>
    rw [if_neg apart]
    exact refs other entry stored

theorem unregister (accounts : AccountsWith s h others) {ip : Text} (before : h.voice = some ip) :
    AccountsWith { s with voice := (s.voice.unregister ip).1 } { h with voice := none } others := by
  refine { accounts with refs := fun other entry stored => ?_ }
  have refs := accounts.refs
  rw [before] at refs
  by_cases same : other = ip
  · subst same
    obtain ⟨held, old, fewer, some⟩ := VoiceRouting.get_unregister_self stored
    have bound := (refs other held old).1
    rw [share_self] at bound
    rw [share_none]
    omega
  · dsimp only at stored
    rw [VoiceRouting.get_unregister_ne _ same] at stored
    have bound := refs other entry stored
    rwa [share_some, if_neg same] at bound

theorem list (accounts : AccountsWith s h others) (session : SessionArc) (nextPtr : Nat)
    (before : h.listed = none) :
    AccountsWith { s with sessions := s.sessions.put session, nextPtr }
      { h with listed := some session } others := by
  have listed := accounts.listed
  rw [before] at listed
  -- `put` replaces what was stored under this UUID and touches no other
  refine { accounts with
    keyed := fun uuid other found => ?_
    listed := fun uuid other found => ?_ }
  all_goals
    dsimp only at found ⊢
    by_cases mine : uuid = session.session.uuid
  · subst mine
    rw [PlayerSessions.get_put_self] at found
    cases found
    rfl
  · rw [PlayerSessions.get_put_ne _ mine] at found
    exact accounts.keyed uuid other found
  · subst mine
    rw [PlayerSessions.get_put_self] at found
    cases found
    rw [share_self]
    omega
  · rw [PlayerSessions.get_put_ne _ mine] at found
    exact Nat.lt_of_lt_of_le (listed uuid other found) (by simp)

theorem unlist (accounts : AccountsWith s h others) {session : SessionArc}
    (before : h.listed = some session) :
    AccountsWith { s with sessions := s.sessions.remove session.session.uuid }
      { h with listed := none } others := by
  have listed := accounts.listed
  rw [before] at listed
  have found {uuid : Uuid} {other : SessionArc}
      (found : (s.sessions.remove session.session.uuid).get uuid = some other) :
      uuid ≠ session.session.uuid ∧ s.sessions.get uuid = some other := by
    rw [PlayerSessions.get, PlayerSessions.remove, lookup_erase_eq] at found
    split at found
    · cases found
    next apart => exact ⟨apart, found⟩
  refine { accounts with
    keyed := fun uuid other stored => accounts.keyed uuid other (found stored).2
    listed := fun uuid other stored => ?_ }
  obtain ⟨apart, kept⟩ := found stored
  have still := listed uuid other kept
  dsimp only
  -- sessions are stored under their own UUIDs, so this is another one
  have other_session : other ≠ session := by
    rintro rfl
    exact apart (accounts.keyed uuid other kept).symm
  rwa [share_some, if_neg other_session] at still

theorem record (accounts : AccountsWith s h others) {session : SessionArc}
    (before : h.recorded = none) :
    AccountsWith { s with recorded := session :: s.recorded } { h with recorded := some session }
      others := by
  refine { accounts with recorded := fun other => ?_ }
  have count := accounts.recorded other
  rw [before, share_none] at count
  dsimp only
  rw [List.count_cons, count, share_some, Nat.add_zero]
  by_cases same : other = session
  · rw [if_pos same, if_pos (by rw [same, beq_self_eq_true])]
  · rw [if_neg same, if_neg (by simpa using Ne.symm same)]

/-- Whatever a step does, the tables account for it. -/
theorem effect (accounts : AccountsWith s h others) (effect : Effect s h s' h') :
    AccountsWith s' h' others := by
  cases effect with
  | aside app bans rates => exact { accounts with }
  | countUp before => exact accounts.countUp before
  | countDown before => exact accounts.countDown before
  | reserve ip before => exact accounts.reserve before
  | refuse preLogin same => exact { accounts with slots := accounts.slots.of_lookup same }
  | giveBack ip before => exact accounts.giveBack before
  | connect arc addr before => exact accounts.connect before
  | measure runtimes same =>
    refine { accounts with active := fun arc => ?_ }
    dsimp only
    rw [same]
    exact accounts.active arc
  | disconnect arc addr before => exact accounts.disconnect before
  | register now ip host backend before => exact accounts.register now host backend before
  | unregister ip before => exact accounts.unregister before
  | voice voice fewer =>
    refine { accounts with refs := fun ip entry stored => ?_ }
    obtain ⟨old, before, same⟩ := fewer ip entry stored
    rw [same]
    exact accounts.refs ip old before
  | list session nextPtr before => exact accounts.list session nextPtr before
  | unlist session before => exact accounts.unlist before
  | record session before => exact accounts.record before

end AccountsWith

/-- One of the parties is as good as the others. -/
theorem accountsWith_cons_iff :
    AccountsWith s {} (h ::ₘ others) ↔ AccountsWith s h others := by
  -- one who holds nothing adds nothing, and `h` is counted on either side
  have sums {κ : Type} [DecidableEq κ] (holds : Holdings → Option κ) (nothing : holds {} = none)
      (key : κ) : tally holds (h ::ₘ others) key + share (holds {}) key =
        tally holds others key + share (holds h) key := by
    rw [tally_cons, nothing, share_none, Nat.add_zero]
  have connections : (h ::ₘ others).countP (·.connection) + ({} : Holdings).connection.toNat =
      others.countP (·.connection) + h.connection.toNat := by
    rw [Multiset.countP_cons]
    cases h.connection <;> rfl
  have slots := sums (·.slot) rfl
  have active := sums (·.counted) rfl
  have refs := sums (·.voice) rfl
  have listed := sums (·.listed) rfl
  have recorded := sums (·.recorded) rfl
  constructor
  · intro accounts
    constructor
    case global => exact accounts.global.trans (by exact_mod_cast connections)
    case slots => exact accounts.slots.congr fun ip => (slots ip).symm
    case active =>
      exact fun arc => (accounts.active arc).congr fun addr => (active (arc, addr)).symm
    case refs => exact fun ip entry stored => refs ip ▸ accounts.refs ip entry stored
    case keyed => exact accounts.keyed
    case listed => exact fun uuid other found => listed other ▸ accounts.listed uuid other found
    case recorded => exact fun other => (accounts.recorded other).trans (recorded other)
  · intro accounts
    constructor
    case global => exact accounts.global.trans (by exact_mod_cast connections.symm)
    case slots => exact accounts.slots.congr slots
    case active => exact fun arc => (accounts.active arc).congr fun addr => active (arc, addr)
    case refs => exact fun ip entry stored => (refs ip).symm ▸ accounts.refs ip entry stored
    case keyed => exact accounts.keyed
    case listed => exact fun uuid other found =>
      (listed other).symm ▸ accounts.listed uuid other found
    case recorded => exact fun other => (accounts.recorded other).trans (recorded other).symm

theorem accounts_start (config : GateConfig) (messages : GateMessages) :
    AccountsWith (start config messages) {} 0 := by
  constructor
  case global => rfl
  case slots => exact Tallies.empty
  case active => exact fun _ => Tallies.empty
  case refs => intro ip entry stored; cases stored
  case keyed => intro uuid session found; cases found
  case listed => intro uuid session found; cases found
  case recorded => exact fun _ => rfl

/-- The parties of a gate, by what they hold. -/
def Gate.holdings (parties : Multiset Party) : Multiset Holdings := parties.map Party.holdings

theorem accounts_step {gate next : Gate} {event : Event Party Choice}
    (accounts : AccountsWith gate.shared {} (Gate.holdings gate.threads))
    (stepped : Gate.step toLowercase gate event = some next) :
    AccountsWith next.shared {} (Gate.holdings next.threads) := by
  refine @step_bag _ _ _ Party.fresh (Party.advance toLowercase)
    (fun shared parties => AccountsWith shared {} (Gate.holdings parties)) (fun _ _ _ => True)
    ?_ ?_ _ _ _ accounts (amongCond_of_forall fun _ _ _ => trivial) stepped
  · -- a party that starts holds nothing
    intro shared parties party accounts fresh
    have nothing : party.holdings = {} := by
      cases party with
      | connection conn => cases conn <;> first | rfl | cases fresh
      | calls operation => rfl
      | returned operation => rfl
    rw [Gate.holdings, Multiset.map_cons, nothing]
    exact accountsWith_cons_iff.mpr accounts
  · -- the mover is taken out of the tally, moves, and is put back
    intro shared party others choice shared' party' accounts _ moved
    rw [Gate.holdings, Multiset.map_cons] at accounts ⊢
    have before := accountsWith_cons_iff.mp accounts
    exact accountsWith_cons_iff.mpr (before.effect (party_effect before.slots.positive moved))

/-! ### What that means for the connections -/

/-- A panic has ended it after its login. -/
def Party.abandoned : Party → Bool
  | .connection (.dropping _ _ ending) | .connection (.closing _ ending)
  | .connection (.closed ending) => ending.abandoned.isSome
  | _ => false

/-- Every table counts the connections that there are, and what those have left that have panicked.
When all have ended the guarded tables are as empty as at the start, and where none has panicked
all tables are. -/
structure Accounted (gate : Gate) : Prop where
  /-- the global cap counts the connections with a place, and those that ask for one -/
  global : gate.shared.global.count =
    (gate.threads : Multiset Party).countP fun party => party.holdings.connection
  /-- an IP's pre-login slots are those of its connections before Login Start -/
  preLogin : ∀ ip, gate.shared.preLogin.counts.countOf ip =
    (gate.threads : Multiset Party).countP fun party => party.holdings.slot = some ip
  /-- a backend's active connections are those that are relayed to it, or were when they panicked -/
  active : ∀ arc addr, (gate.shared.runtimes arc).activeConnectionsOf addr =
    (gate.threads : Multiset Party).countP fun party => party.holdings.counted = some (arc, addr)
  /-- a voice entry belongs to an IP with a connection that registered it -/
  voice : ∀ ip entry, gate.shared.voice.get ip = some entry →
    ∃ party ∈ gate.threads, party.holdings.voice = some ip
  /-- a session that is listed is that of a connection that is relayed, or was when it panicked -/
  listed : ∀ uuid session, gate.shared.sessions.get uuid = some session →
    ∃ party ∈ gate.threads, party.holdings.listed = some session
  /-- a session is given to the tracker once for each connection that has ended with it -/
  recorded : ∀ session, gate.shared.recorded.count session =
    (gate.threads : Multiset Party).countP fun party => party.holdings.recorded = some session
  /-- the guards give everything back, however a connection ends -/
  idle : (∀ party ∈ gate.threads, party.ended) →
    gate.shared.global.count = 0 ∧ gate.shared.preLogin.counts.entries = []
  /-- without a panic nothing is left behind -/
  clean : (∀ party ∈ gate.threads, party.ended ∧ party.abandoned = false) →
    (∀ arc, (gate.shared.runtimes arc).activeConnections.entries = []) ∧
      gate.shared.voice.entries.entries = [] ∧ gate.shared.sessions.sessions.entries = []

private theorem holdings_of_ended {party : Party} (ended : party.ended) :
    party.holdings.connection = false ∧ party.holdings.slot = none := by
  cases party with
  | connection conn =>
    cases conn with
    | closed ending => exact ⟨rfl, rfl⟩
    | _ => cases ended
  | calls operation => cases ended
  | returned operation => exact ⟨rfl, rfl⟩

private theorem holdings_of_clean {party : Party} (ended : party.ended)
    (clean : party.abandoned = false) :
    party.holdings.counted = none ∧ party.holdings.voice = none ∧ party.holdings.listed = none := by
  cases party with
  | connection conn =>
    cases conn with
    | closed ending =>
      have nothing := Option.not_isSome_iff_eq_none.mp (Bool.eq_false_iff.mp clean)
      simp [Party.holdings, Conn.holdings, Ending.holdings, nothing]
    | _ => cases ended
  | calls operation => cases ended
  | returned operation => exact ⟨rfl, rfl, rfl⟩

/-- Parties that hold nothing are not in any tally. -/
theorem tally_holdings {κ : Type} [DecidableEq κ] (holds : Holdings → Option κ)
    (parties : Multiset Party) (key : κ) :
    tally holds (Gate.holdings parties) key + share none key =
      parties.countP fun party => holds party.holdings = some key := by
  rw [share_none, Nat.add_zero, Gate.holdings, tally_map]
  rfl

theorem AccountsWith.connections {parties : Multiset Party}
    (accounts : AccountsWith s {} (Gate.holdings parties)) :
    s.global.count = parties.countP fun party => party.holdings.connection := by
  rw [accounts.global, Gate.holdings, Multiset.countP_map, ← Multiset.countP_eq_card_filter]
  exact Int.add_zero _

theorem accounted_of_accountsWith {gate : Gate}
    (accounts : AccountsWith gate.shared {} (Gate.holdings gate.threads)) : Accounted gate := by
  have connections := accounts.connections
  have slots (ip : Text) := tally_holdings (·.slot) gate.threads ip
  have holder {κ : Type} [DecidableEq κ] {holds : Holdings → Option κ} {key : κ}
      (held : 0 < tally holds (Gate.holdings gate.threads) key + share none key) :
      ∃ party ∈ gate.threads, holds party.holdings = some key := by
    rw [tally_holdings, Multiset.countP_pos] at held
    exact held
  have idle_tally {κ : Type} [DecidableEq κ] (holds : Holdings → Option κ)
      (nothing : ∀ party ∈ gate.threads, holds party.holdings = none) (key : κ) :
      tally holds (Gate.holdings gate.threads) key + share none key = 0 := by
    rw [tally_holdings, Multiset.countP_eq_zero]
    intro party member held
    rw [nothing party member] at held
    cases held
  -- a map without an entry for any key has no entries at all
  have nobody {κ ν : Type} [DecidableEq κ] {m : HashMap κ ν}
      (absent : ∀ key value, m.lookup key ≠ some value) : m.entries = [] := by
    rw [List.eq_nil_iff_forall_not_mem]
    rintro ⟨key, value⟩ member
    exact absent key value (mem_entries_iff.mp member)
  constructor
  case global => exact connections
  case preLogin => exact fun ip => (accounts.slots.counts ip).trans (congrArg Nat.cast (slots ip))
  case active =>
    intro arc addr
    exact ((accounts.active arc).counts addr).trans
      (congrArg Nat.cast (tally_holdings (·.counted) gate.threads (arc, addr)))
  case voice => exact fun ip entry stored => holder (accounts.refs ip entry stored).2
  case listed => exact fun uuid session found => holder (accounts.listed uuid session found)
  case recorded =>
    exact fun session => (accounts.recorded session).trans (tally_holdings (·.recorded) _ session)
  case idle =>
    intro ended
    constructor
    · rw [connections, Multiset.countP_eq_zero.mpr]
      · rfl
      · intro party member held
        rw [(holdings_of_ended (ended party member)).1] at held
        cases held
    · exact (accounts.slots.congr fun ip => (idle_tally (·.slot) (fun party member =>
        (holdings_of_ended (ended party member)).2) ip).symm).eq_nil
  case clean =>
    intro clean
    have nothing (party : Party) (member : party ∈ gate.threads) :=
      holdings_of_clean (clean party member).1 (clean party member).2
    refine ⟨fun arc => ?_, nobody fun ip entry stored => ?_, nobody fun uuid session found => ?_⟩
    · exact ((accounts.active arc).congr fun addr => (idle_tally (·.counted) (fun party member =>
        (nothing party member).1) (arc, addr)).symm).eq_nil
    · have some := (accounts.refs ip entry stored).2
      exact absurd (idle_tally (·.voice) (fun party member => (nothing party member).2.1) ip)
        (Nat.ne_of_gt some)
    · have some := accounts.listed uuid session found
      exact absurd (idle_tally (·.listed) (fun party member => (nothing party member).2.2) session)
        (Nat.ne_of_gt some)

/-- In every state of every run the tables account for the connections. -/
theorem tables_accounted_always (config : GateConfig) (messages : GateMessages)
    (events : List (Event Party Choice)) :
    Always (Gate.step toLowercase) Accounted (Gate.start config messages) events := by
  have accounts : Always (Gate.step toLowercase)
      (fun gate => AccountsWith gate.shared {} (Gate.holdings gate.threads))
      (Gate.start config messages) events :=
    always_of_keep (fun _ _ _ accounts stepped => accounts_step accounts stepped) events
      (accounts_start config messages)
  exact accounts.imp fun _ => accounted_of_accountsWith

end Server

end MCGate
