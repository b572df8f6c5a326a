import MCGate.Net.ServerAccounts
import MCGate.Net.ServerBans

/-!
# How many are let in

A config caps the connections that are open at once, and those of an IP that have not logged in
yet. A connection goes by the config that was live when it came, so after a reload several caps
are in force. As long as every config that goes live has both caps, no more connections are open
than the largest of them allows, and no more of an IP are before their login: an acquire that is
on its way to its guard is counted before it is compared, and the slots of an IP are compared and
counted at once.
-/
namespace MCGate.Server

open Config HashMap Machine Tally Threads

/-- The guard of a connection that was let in and has not been closed. -/
def Conn.global : Conn → Option GlobalConnectionGuard
  | .acquiring _ _ _ (.guard global) => some global
  | .limitingRate o | .readingHeader o _ => some o.global
  | .checkingBanAgain k | .reserving k => some k.global
  | .readingHandshake a | .routing a _ _ _ => some a.global
  | .readingStatusRequest r | .answeringStatus r _ | .checkingLimit r | .readingLoginStart r
  | .provenReal r _ => some r.global
  | .resolving l | .dialing l _ | .counting l _ | .timing l _ | .registeringVoice l _
  | .sniffing l _ _ => some l.global
  | .relaying v | .discounting v | .unlisting v | .recording v _ _ | .unregisteringVoice v =>
    some v.global
  | .offending _ _ global _ | .dropping global _ _ | .closing global _ => some global
  | _ => none

/-- The client's address and the pre-login guard of a connection that has not logged in. -/
def Conn.waiting : Conn → Option (SocketAddr × PreLoginGuard)
  | .readingHandshake a | .routing a _ _ _ => some (a.addr, a.guard)
  | .readingStatusRequest r | .answeringStatus r _ | .checkingLimit r | .readingLoginStart r
  | .provenReal r _ => some (r.addr, r.guard)
  | _ => none

/-- Its acquire was counted and is within its cap. -/
def Conn.wins : Conn → Bool
  | .acquiring _ _ cfg task => task.wins cfg.connectionThrottle.maxConnections.toInt
  | _ => false

/-- What a step of a connection does about the two caps. -/
inductive Occupies (s : Shared) (c : Conn) (s' : Shared) (c' : Conn) : Prop
  /-- it goes on with what it has, or leaves it -/
  | goesOn (global : c'.global = c.global ∨ c'.global = none) (wins : c'.wins = false)
    (waiting : c'.waiting = c.waiting ∨ c'.waiting = none) (preLogin : s'.preLogin = s.preLogin)
  /-- it is counted -/
  | asks (cfg : GateConfig) (known : c.config = some cfg) (global : c'.global = none)
    (room : c'.wins → s.global.count + 1 ≤ cfg.connectionThrottle.maxConnections.toInt)
    (waiting : c'.waiting = none) (preLogin : s'.preLogin = s.preLogin)
  /-- it was counted within its cap -/
  | letIn (won : c.wins) (global : c'.global = some ⟨false⟩) (wins : c'.wins = false)
    (waiting : c'.waiting = none) (preLogin : s'.preLogin = s.preLogin)
  /-- it asks for a slot of its IP -/
  | reserves (k : Known) (stage : c = .reserving k) (global : c'.global = c.global)
    (wins : c'.wins = false)
    (asked : PreLoginGuard.acquire s.preLogin (some (ipString k.addr))
        (UInt32.ofNat k.cfg.maxConnectionsPerIp.toInt.toNat) =
      (s'.preLogin, c'.waiting.map Prod.snd))
    (own : ∀ w ∈ c'.waiting, w.1 = k.addr)
  /-- it gives its slot back -/
  | givesBack (guard : PreLoginGuard) (global : c'.global = c.global) (wins : c'.wins = false)
    (waiting : c'.waiting = none) (preLogin : s'.preLogin = (guard.release s.preLogin).1)

variable {s s' : Shared} {c c' : Conn} {choice : Choice} {toLowercase : Text → Text}

private theorem updateRuntime_preLogin (runtime : Option Nat) (f : RouteRuntime → RouteRuntime) :
    (Conn.updateRuntime s runtime f).preLogin = s.preLogin := by
  cases runtime <;> rfl

private theorem step_occupies
    (limited : ∀ cfg ∈ c.config, 0 < cfg.connectionThrottle.maxConnections.toInt)
    (stepped : c.Step toLowercase s choice s' c') : Occupies s c s' c' := by
  cases stepped with
  | uncapped peer stream cfg off => exact absurd (limited cfg rfl) (Int.not_lt.mpr off)
  | count peer stream cfg => exact .asks cfg rfl rfl of_decide_eq_true rfl rfl
  | fits peer stream cfg count room => exact .letIn (decide_eq_true room) rfl rfl rfl rfl
  | reserve k preLogin guard granted =>
    exact .reserves k rfl rfl rfl granted (by rintro _ ⟨⟩; rfl)
  | refuse k preLogin refused => exact .reserves k rfl rfl rfl refused (by rintro _ ⟨⟩)
  | prove r player => exact .givesBack r.guard rfl rfl rfl rfl
  | release global guard ending => exact .givesBack guard rfl rfl rfl rfl
  | opened | time | discount =>
    exact .goesOn (.inl rfl) rfl (.inl rfl) (updateRuntime_preLogin _ _)
  -- the guard of the global cap goes last
  | turnAway | exceeds | reject | uncounted | leaves => exact .goesOn (.inr rfl) rfl (.inl rfl) rfl
  -- those that are before their login leave it
  | badHandshake | noRoute | noRequest | answer | spent | late | badLogin =>
    exact .goesOn (.inl rfl) rfl (.inr rfl) rfl
  | _ => exact .goesOn (.inl rfl) rfl (.inl rfl) rfl

/-! ### The guards -/

/-- Its place is counted, and so is its slot. -/
structure Conn.Guarded (c : Conn) : Prop where
  global : ∀ global ∈ c.global, global.released = false
  waiting : ∀ w ∈ c.waiting, w.2 = ⟨some (ipString w.1), false⟩

/-- The largest cap on open connections, and the largest on those of an IP before their login. -/
structure Caps where
  connections : Int
  perIp : Int

/-- A config has both caps, and they are no larger. -/
def Caps.Cover (caps : Caps) (cfg : GateConfig) : Prop :=
  (0 < cfg.connectionThrottle.maxConnections.toInt ∧
    cfg.connectionThrottle.maxConnections.toInt ≤ caps.connections) ∧
  0 < cfg.maxConnectionsPerIp.toInt ∧ cfg.maxConnectionsPerIp.toInt ≤ caps.perIp

instance (caps : Caps) : DecidablePred caps.Cover :=
  fun _ => inferInstanceAs (Decidable (_ ∧ _))

/-- A cap is compared with as it stands in the config. -/
theorem toNat_perIp (n : Int32) : (UInt32.ofNat n.toInt.toNat).toNat = n.toInt.toNat := by
  have small := n.toInt_lt
  have fits : n.toInt.toNat < UInt32.size := by
    rw [UInt32.size]
    omega
  exact UInt32.toNat_ofNat_of_lt' fits

variable {caps : Caps}

/-- What an acquire makes of the counts, where the cap is at most `caps.perIp`. -/
theorem acquire_bounded {preLogin : PreLoginConnections} {cap : Int32} {ip : Text}
    (positive : preLogin.counts.Positive) (enabled : 0 < cap.toInt) (bound : cap.toInt ≤ caps.perIp)
    (few : ∀ ip, preLogin.counts.countOf ip ≤ caps.perIp) :
    (∀ other, (PreLoginGuard.acquire preLogin (some ip)
        (UInt32.ofNat cap.toInt.toNat)).1.counts.countOf other ≤ caps.perIp) ∧
      ∀ guard ∈ (PreLoginGuard.acquire preLogin (some ip) (UInt32.ofNat cap.toInt.toNat)).2,
        guard = ⟨some ip, false⟩ := by
  have size := toNat_perIp cap
  rcases @PreLogin.acquire_cases ⟨preLogin, []⟩ positive (some ip)
      (UInt32.ofNat cap.toInt.toNat) with
    ⟨off | none, -⟩ | ⟨_, -, same, room, granted⟩ | ⟨_, _, -, same, -, refused, lookups⟩
  · -- the cap is not zero
    have zero := congrArg UInt32.toNat off
    rw [size, UInt32.toNat_zero] at zero
    omega
  · cases none
  · cases same
    dsimp only at room granted
    rw [granted, size] at *
    refine ⟨fun other => ?_, fun guard given => (Option.some.inj given).symm⟩
    dsimp only
    rw [countOf_countUp]
    split
    · omega
    · exact few other
  · cases same
    dsimp only at refused lookups
    rw [refused]
    refine ⟨fun other => ?_, by rintro _ ⟨⟩⟩
    dsimp only
    rw [countOf, lookups]
    exact few other

private theorem release_bounded {preLogin : PreLoginConnections}
    (positive : preLogin.counts.Positive) (few : ∀ ip, preLogin.counts.countOf ip ≤ caps.perIp)
    (guard : PreLoginGuard) (ip : Text) :
    (guard.release preLogin).1.counts.countOf ip ≤ caps.perIp := by
  obtain ⟨own, released⟩ := guard
  cases released with
  | true => exact few ip
  | false =>
    cases own with
    | none => exact few ip
    | some own => exact countOf_countDown_le positive few ip

private theorem Conn.Guarded.of_occupies (guarded : c.Guarded)
    (positive : s.preLogin.counts.Positive) (covered : ∀ cfg ∈ c.config, caps.Cover cfg)
    (few : ∀ ip, s.preLogin.counts.countOf ip ≤ caps.perIp) (occupies : Occupies s c s' c') :
    c'.Guarded ∧ ∀ ip, s'.preLogin.counts.countOf ip ≤ caps.perIp := by
  have nothing {α : Type} {p : α → Prop} : ∀ x ∈ (none : Option α), p x := by rintro _ ⟨⟩
  cases occupies with
  | goesOn global wins waiting preLogin =>
    refine ⟨⟨?_, ?_⟩, by rwa [preLogin]⟩
    · rcases global with same | none
      · exact same ▸ guarded.global
      · exact none ▸ nothing
    · rcases waiting with same | none
      · exact same ▸ guarded.waiting
      · exact none ▸ nothing
  | asks cfg known global room waiting preLogin =>
    exact ⟨⟨global ▸ nothing, waiting ▸ nothing⟩, by rwa [preLogin]⟩
  | letIn won global wins waiting preLogin =>
    refine ⟨⟨?_, waiting ▸ nothing⟩, by rwa [preLogin]⟩
    rw [global]
    rintro _ ⟨⟩
    rfl
  | reserves k stage global wins asked own =>
    subst stage
    obtain ⟨-, enabled, bound⟩ := covered k.cfg rfl
    have answer := @acquire_bounded caps s.preLogin _ (ipString k.addr) positive enabled bound few
    rw [asked] at answer
    refine ⟨⟨global ▸ guarded.global, fun w known => ?_⟩, answer.1⟩
    rw [own w known]
    apply answer.2
    exact Option.mem_map_of_mem Prod.snd known
  | givesBack guard global wins waiting preLogin =>
    refine ⟨⟨global ▸ guarded.global, waiting ▸ nothing⟩, ?_⟩
    rw [preLogin]
    exact release_bounded positive few guard

/-! ### The connections -/

/-- It has its place, or will be given it. -/
def Conn.taken (c : Conn) : Bool := c.global.isSome || c.wins

def Party.taken : Party → Bool
  | .connection conn => conn.taken
  | _ => false

/-- It was let in and has not been closed. -/
def Party.isOpen : Party → Bool
  | .connection conn => conn.global.isSome
  | _ => false

/-- The IP of a client that was let in and has not logged in. -/
def Party.beforeLogin : Party → Option Text
  | .connection conn => conn.waiting.map fun w => ipString w.1
  | _ => none

/-- A place that is taken is counted. -/
theorem Conn.Guarded.connection (guarded : c.Guarded) (taken : c.taken) :
    c.holdings.connection := by
  have counted (global : GlobalConnectionGuard) (own : c.global = some global) :
      (!global.released) = true := by
    rw [guarded.global global own]
    rfl
  cases c with
  | acquiring peer stream cfg task =>
    cases task with
    | compare count => rfl
    | guard global =>
      obtain ⟨released⟩ := global
      have held := guarded.global _ rfl
      dsimp only at held
      subst held
      rfl
    | _ => cases taken
  | accepted | checkingBan | closed => cases taken
  | _ => exact counted _ rfl

theorem Conn.Guarded.slot (guarded : c.Guarded) {w : SocketAddr × PreLoginGuard}
    (waiting : c.waiting = some w) : c.holdings.slot = some (ipString w.1) := by
  have own := guarded.waiting w waiting
  have slot : w.2.slot = some (ipString w.1) := by
    rw [own]
    rfl
  cases c with
  | readingHandshake | routing | readingStatusRequest | answeringStatus | checkingLimit
  | readingLoginStart | provenReal =>
    cases waiting
    exact slot
  | acquiring _ _ _ task => cases task <;> cases waiting
  | _ => cases waiting

/-- Whatever is live: no more places are taken than the largest cap allows, and no IP has more
slots. -/
structure CapsHold (caps : Caps) (s : Shared) (parties : Multiset Party) : Prop where
  accounts : AccountsWith s {} (Gate.holdings parties)
  configured : Configured caps.Cover s parties
  guarded : ∀ conn, Party.connection conn ∈ parties → conn.Guarded
  taken : (parties.countP fun party => party.taken : Int) ≤ caps.connections
  slots : ∀ ip, s.preLogin.counts.countOf ip ≤ caps.perIp

variable {party party' : Party} {parties others : Multiset Party}

/-- The counter covers the places that are taken. -/
theorem CapsHold.taken_le (hold : CapsHold caps s parties) :
    (parties.countP fun party => party.taken : Int) ≤ s.global.count := by
  have counted : (parties.countP fun party => party.taken) ≤
      parties.countP fun party => party.holdings.connection := by
    apply countP_mono
    intro party member taken
    cases party with
    | connection conn => exact (hold.guarded conn member).connection taken
    | calls | returned => cases taken
  rw [hold.accounts.connections]
  exact Int.ofNat_le.mpr counted

theorem CapsHold.spawn (hold : CapsHold caps s parties) (fresh : party.fresh) :
    CapsHold caps s (party ::ₘ parties) := by
  have nothing : party.holdings = {} ∧ party.taken = false ∧
      ∀ conn, party = .connection conn → conn.Guarded := by
    cases party with
    | connection conn =>
      cases conn with
      | accepted peer stream =>
        refine ⟨rfl, rfl, ?_⟩
        rintro _ ⟨⟩
        exact ⟨by rintro _ ⟨⟩, by rintro _ ⟨⟩⟩
      | _ => cases fresh
    | calls operation => exact ⟨rfl, rfl, by rintro _ ⟨⟩⟩
    | returned operation => cases fresh
  obtain ⟨holdings, taken, guarded⟩ := nothing
  constructor
  case accounts =>
    rw [Gate.holdings, Multiset.map_cons, holdings]
    exact accountsWith_cons_iff.mpr hold.accounts
  case configured => exact hold.configured.spawn fresh
  case guarded =>
    intro conn member
    rcases Multiset.mem_cons.mp member with same | old
    · exact guarded conn same.symm
    · exact hold.guarded conn old
  case taken =>
    rw [Multiset.countP_cons_of_neg _ (by simp [taken])]
    exact hold.taken
  case slots => exact hold.slots

/-- A place is taken by who has it already, or where the counter leaves room. -/
theorem Occupies.taken (occupies : Occupies s c s' c') (taken : c'.taken) :
    c.taken ∨ ∃ cfg ∈ c.config,
      s.global.count + 1 ≤ cfg.connectionThrottle.maxConnections.toInt := by
  unfold Conn.taken at taken ⊢
  cases occupies with
  | goesOn global wins waiting preLogin =>
    rcases global with same | none
    · rw [wins, Bool.or_false, same] at taken
      rw [taken]
      exact .inl rfl
    · rw [wins, none] at taken
      cases taken
  | asks cfg known global room waiting preLogin =>
    rw [global] at taken
    exact .inr ⟨cfg, known, room taken⟩
  | letIn won global wins waiting preLogin =>
    rw [won, Bool.or_true]
    exact .inl rfl
  | reserves k stage global wins | givesBack guard global wins =>
    rw [wins, Bool.or_false, global] at taken
    rw [taken]
    exact .inl rfl

/-- What a party has after its move. -/
theorem CapsHold.own (hold : CapsHold caps s (party ::ₘ others))
    (moved : party.advance toLowercase s choice = some (s', party')) :
    (∀ conn, party' = .connection conn → conn.Guarded) ∧
      (∀ ip, s'.preLogin.counts.countOf ip ≤ caps.perIp) ∧
      (party'.taken → party.taken ∨ s.global.count + 1 ≤ caps.connections) := by
  cases party with
  | connection conn =>
    obtain ⟨⟨_, conn'⟩, step, same⟩ := Option.map_eq_some_iff.mp moved
    cases same
    have covered := hold.configured.snapshots conn (Multiset.mem_cons_self _ _)
    have guarded := hold.guarded conn (Multiset.mem_cons_self _ _)
    have occupies := step_occupies (fun cfg known => (covered cfg known).1.1)
      (Conn.step_of_advance step)
    have kept := guarded.of_occupies hold.accounts.slots.positive covered hold.slots occupies
    refine ⟨?_, kept.2, fun taken => ?_⟩
    · rintro _ ⟨⟩
      exact kept.1
    · apply (occupies.taken taken).imp_right
      rintro ⟨cfg, known, room⟩
      exact Int.le_trans room (covered cfg known).1.2
  | calls operation =>
    cases moved
    refine ⟨by rintro _ ⟨⟩, ?_, by rintro ⟨⟩⟩
    cases operation <;> exact hold.slots
  | returned operation => cases moved

theorem CapsHold.move (hold : CapsHold caps s (party ::ₘ others))
    (brings : party.Brings caps.Cover)
    (moved : party.advance toLowercase s choice = some (s', party')) :
    CapsHold caps s' (party' ::ₘ others) := by
  obtain ⟨guarded, slots, takes⟩ := hold.own moved
  have accounts := hold.accounts
  rw [Gate.holdings, Multiset.map_cons, accountsWith_cons_iff] at accounts
  constructor
  case accounts =>
    rw [Gate.holdings, Multiset.map_cons]
    exact accountsWith_cons_iff.mpr (accounts.effect (party_effect accounts.slots.positive moved))
  case configured => exact hold.configured.move brings moved
  case guarded =>
    intro conn member
    rcases Multiset.mem_cons.mp member with same | old
    · exact guarded conn same.symm
    · exact hold.guarded conn (Multiset.mem_cons_of_mem old)
  case taken =>
    have counter := hold.taken_le
    have before := hold.taken
    rw [Multiset.countP_cons] at counter before ⊢
    cases takes_it : party'.taken with
    | false =>
      rw [if_neg Bool.false_ne_true]
      omega
    | true =>
      rw [if_pos rfl]
      rcases takes takes_it with had | room
      · rw [had, if_pos rfl] at before
        exact before
      · omega
  case slots => exact slots

/-! ### In a run -/

private theorem capsHold_step {gate next : Gate} {event : Event Party Choice}
    (hold : CapsHold caps gate.shared gate.threads)
    (brings : AmongCond (fun _ party _ => party.Brings caps.Cover) gate event)
    (stepped : Gate.step toLowercase gate event = some next) :
    CapsHold caps next.shared next.threads := by
  refine @step_bag _ _ _ Party.fresh (Party.advance toLowercase) (CapsHold caps)
    (fun _ party _ => party.Brings caps.Cover) ?_ ?_ _ _ _ hold brings stepped
  · exact fun _ _ _ before fresh => before.spawn fresh
  · exact fun _ _ _ _ _ _ before brings moved => before.move brings moved

private theorem capsHold_start (config : GateConfig) (messages : GateMessages)
    (covered : caps.Cover config) : CapsHold caps (start config messages) 0 := by
  obtain ⟨⟨open_, most⟩, perIp, mostPerIp⟩ := covered
  constructor
  case accounts => exact accounts_start config messages
  case configured => exact ⟨⟨⟨open_, most⟩, perIp, mostPerIp⟩, by rintro _ ⟨⟩⟩
  case guarded => rintro _ ⟨⟩
  case taken => exact Int.le_trans (Int.le_of_lt open_) most
  case slots => exact fun ip => Int.le_trans (Int.le_of_lt perIp) mostPerIp

/-- In every run in which each config that goes live has both caps, `caps` at most: never are more
connections open, and never are more clients of an IP before their login. -/
theorem caps_hold_always (caps : Caps) (config : GateConfig) (messages : GateMessages)
    (events : List (Event Party Choice)) (covered : caps.Cover config)
    (reloads : Guarded (Gate.step toLowercase)
      (AmongCond fun _ party _ => party.Brings caps.Cover) (Gate.start config messages) events) :
    Always (Gate.step toLowercase)
      (fun gate =>
        ((gate.threads : Multiset Party).countP fun party => party.isOpen : Int) ≤
          caps.connections ∧
        ∀ ip, ((gate.threads : Multiset Party).countP fun party =>
          party.beforeLogin = some ip : Int) ≤ caps.perIp)
      (Gate.start config messages) events := by
  have hold : Always (Gate.step toLowercase)
      (fun gate => CapsHold caps gate.shared gate.threads) (Gate.start config messages) events :=
    always_of_guarded (fun _ _ _ before brings stepped => capsHold_step before brings stepped)
      (capsHold_start config messages covered) reloads
  refine hold.imp fun gate hold => ⟨?_, fun ip => ?_⟩
  · apply Int.le_trans _ hold.taken
    apply Int.ofNat_le.mpr
    apply countP_mono
    -- an open connection has its place under the global cap
    intro party _ isOpen
    cases party with
    | connection conn =>
      rw [Party.taken, Conn.taken]
      exact Bool.or_eq_true_iff.mpr (.inl isOpen)
    | calls | returned => cases isOpen
  · apply Int.le_trans _ (hold.slots ip)
    rw [(accounted_of_accountsWith hold.accounts).preLogin]
    apply Int.ofNat_le.mpr
    apply countP_mono
    -- one before its login has a slot that its guard has not given back
    intro party member before
    cases party with
    | connection conn =>
      obtain ⟨w, waiting, rfl⟩ := Option.map_eq_some_iff.mp before
      exact (hold.guarded conn member).slot waiting
    | calls | returned => cases before

/-- Two connections, one of them before its login; and with a reload three, and two. -/
def tight : GateConfig :=
  { connectionThrottle := { maxConnections := 2 }, maxConnectionsPerIp := 1 }

def roomy : GateConfig :=
  { connectionThrottle := { maxConnections := 3 }, maxConnectionsPerIp := 2 }

/-- One IP connects, and after the reload three more times. -/
def crowd : List (Event Party Choice) :=
  .spawn (.connection (.accepted scanner [])) :: .move 0 { now := 0 } ::
    .spawn (.calls (.setConfig roomy)) :: .move 1 { now := 0 } ::
    (List.replicate 3 (.spawn (.connection (.accepted scanner []))) ++
      ((List.replicate 6 [0, 2, 3, 4]).flatten ++ [0, 2, 3, 2, 3]).map fun i =>
        .move i { now := 0 })

/-- Whichever config they came under, three of them are open at most, and two before their
login. -/
theorem caps_hold_always_crowd :
    Caps.Cover ⟨3, 2⟩ tight ∧
    Guarded (Gate.step id) (AmongCond fun _ party _ => party.Brings (Caps.Cover ⟨3, 2⟩))
      (Gate.start tight {}) crowd ∧
    Always (Gate.step id)
      (fun gate =>
        ((gate.threads : Multiset Party).countP fun party => party.isOpen : Int) ≤ 3 ∧
        ∀ ip, ((gate.threads : Multiset Party).countP fun party =>
          party.beforeLogin = some ip : Int) ≤ 2)
      (Gate.start tight {}) crowd := by
  have covered : Caps.Cover ⟨3, 2⟩ tight := by decide
  have reloads : Guarded (Gate.step id)
      (AmongCond fun _ party _ => party.Brings (Caps.Cover ⟨3, 2⟩)) (Gate.start tight {})
        crowd := by
    decide +kernel
  exact ⟨covered, reloads, caps_hold_always ⟨3, 2⟩ tight {} crowd covered reloads⟩

example : ((Machine.run (Gate.step id) (Gate.start tight {}) crowd).map fun gate =>
    (gate.threads.countP fun party => party.isOpen,
      gate.threads.countP fun party => party.beforeLogin = some (ipString scanner))) =
    some (3, 2) := by
  decide +kernel

end MCGate.Server
