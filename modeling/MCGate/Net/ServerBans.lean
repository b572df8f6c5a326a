import MCGate.Lib.Tally
import MCGate.Net.ServerSteps

/-!
# Who is banned

A connection that misbehaves in front of its login is a violation of its IP, and so many of them
ban the IP. The list holds nothing else: each of its counts is covered by connections that have
ended with a violation of that IP, and each of its bans by as many of them as a ban takes, or by
a call of the console. Behind a load balancer the IP is the one of the PROXY header, so the
balancer's own is safe however many clients misbehave.
-/
namespace MCGate

namespace IpBanList

/-- Nothing is tracked that was not. -/
def Within (self other : IpBanList) : Prop :=
  ∀ ip o, self.offenders.lookup ip = some o → other.offenders.lookup ip = some o

private theorem within_isBanned (self : IpBanList) (now : Instant) (ip : Text) :
    (self.isBanned now ip).1.Within self := by
  intro other o stored
  unfold isBanned at stored
  split at stored
  · split at stored
    · exact stored
    · rw [HashMap.lookup_erase_eq] at stored
      split at stored
      · cases stored
      · exact stored
  · exact stored
  · exact stored

/-- The list has at most been asked about an IP. -/
def AskedFrom (self other : IpBanList) (now : Instant) : Prop :=
  self = other ∨ ∃ ip, self = (other.isBanned now ip).1

theorem AskedFrom.within {self other : IpBanList} {now : Instant}
    (asked : self.AskedFrom other now) : self.Within other := by
  rcases asked with rfl | ⟨ip, rfl⟩
  · exact fun _ _ => id
  · exact other.within_isBanned now ip

private theorem within_unban (self : IpBanList) (now : Instant) (ip : Text) :
    (self.unban now ip).1.Within self := by
  intro other o stored
  unfold unban at stored
  split at stored
  · exact stored
  · rw [HashMap.lookup_erase_eq] at stored
    split at stored
    · cases stored
    · exact stored

private theorem within_sweep (self : IpBanList) (now : Instant) : (self.sweep now).Within self := by
  intro other o stored
  rw [sweep, HashMap.lookup_retain, Option.filter_eq_some_iff] at stored
  exact stored.1

/-- What a violation makes of the entry of its IP. -/
theorem recordViolation_cases {self : IpBanList} {now : Instant} {ip other : Text}
    {maxViolations : UInt32} {window banDuration : Nat} {o : Offender}
    (stored : (self.recordViolation now ip maxViolations window banDuration).1.offenders.lookup
      other = some o) :
    self.offenders.lookup other = some o ∨
    other = ip ∧ o.violationCount.toNat ≤
        (((self.offenders.lookup ip).map Offender.violationCount).getD 0).toNat + 1 ∧
      (o.bannedUntil = (self.offenders.lookup ip).bind Offender.bannedUntil ∨
        maxViolations.toNat ≤
          (((self.offenders.lookup ip).map Offender.violationCount).getD 0).toNat + 1) := by
  -- the count that the violation is added to is the one that is there, or zero
  have count : (self.counted now ip window).violationCount.toNat ≤
      (((self.offenders.lookup ip).map Offender.violationCount).getD 0).toNat := by
    unfold counted
    cases self.offenders.lookup ip <;> dsimp only [Option.getD] <;> split <;> simp
  have kept : (self.counted now ip window).bannedUntil =
      (self.offenders.lookup ip).bind Offender.bannedUntil := by
    unfold counted
    cases self.offenders.lookup ip <;> dsimp only [Option.getD] <;> split <;> rfl
  have wraps : ((self.counted now ip window).violationCount + 1).toNat ≤
      (self.counted now ip window).violationCount.toNat + 1 := by
    rw [UInt32.toNat_add]
    exact Nat.mod_le _ _
  unfold recordViolation at stored
  split at stored
  · exact .inl stored
  · dsimp only at stored
    split at stored
    next reached =>
      have reached := UInt32.le_iff_toNat_le.mp reached
      rw [HashMap.lookup_insert_eq] at stored
      split at stored
      next same =>
        cases stored
        exact .inr ⟨same, Nat.zero_le _, .inr (by omega)⟩
      next => exact .inl stored
    next below =>
      rw [HashMap.lookup_insert_eq] at stored
      split at stored
      next same =>
        cases stored
        exact .inr ⟨same, by dsimp only; omega, .inl kept⟩
      next => exact .inl stored

/-- Every entry has its cause: its count is at most `k`, and where it is banned that was by hand or
`k` has come to `n`. -/
def Caused (self : IpBanList) (n : Nat) (k : Text → Nat) (byHand : Text → Prop) : Prop :=
  ∀ ip o, self.offenders.lookup ip = some o →
    o.violationCount.toNat ≤ k ip ∧ (o.bannedUntil.isSome → n ≤ k ip ∨ byHand ip)

variable {self other : IpBanList} {n : Nat} {k : Text → Nat} {byHand : Text → Prop}

theorem Caused.within (caused : self.Caused n k byHand) (within : other.Within self) :
    other.Caused n k byHand := fun ip o stored => caused ip o (within ip o stored)

theorem Caused.imp (caused : self.Caused n k byHand) {byHand' : Text → Prop}
    (implies : ∀ ip, byHand ip → byHand' ip) : self.Caused n k byHand' := by
  intro ip o stored
  obtain ⟨few, cause⟩ := caused ip o stored
  exact ⟨few, fun banned => (cause banned).imp id (implies ip)⟩

theorem Caused.recordViolation (caused : self.Caused n k byHand) (now : Instant) (ip : Text)
    {maxViolations : UInt32} (limit : n ≤ maxViolations.toNat) (window banDuration : Nat) :
    (self.recordViolation now ip maxViolations window banDuration).1.Caused n
      (fun other => k other + Tally.share (some ip) other) byHand := by
  intro other o stored
  dsimp only
  rcases recordViolation_cases stored with before | ⟨rfl, few, banned⟩
  · obtain ⟨few, cause⟩ := caused other o before
    exact ⟨by omega, fun banned => (cause banned).imp (by omega) id⟩
  · rw [Tally.share_self]
    have counted : (((self.offenders.lookup other).map Offender.violationCount).getD 0).toNat ≤
        k other := by
      cases before : self.offenders.lookup other with
      | none => exact Nat.zero_le _
      | some old => exact (caused other old before).1
    refine ⟨by omega, fun isBanned => ?_⟩
    rcases banned with kept | reached
    · -- the ban is the one that was there
      rw [kept] at isBanned
      cases before : self.offenders.lookup other with
      | none =>
        rw [before] at isBanned
        cases isBanned
      | some old =>
        rw [before] at isBanned
        exact ((caused other old before).2 isBanned).imp (by omega) id
    · exact .inl (by omega)

theorem Caused.ban (caused : self.Caused n k byHand) (now : Instant) (ip : Text) (duration : Nat)
    (hand : byHand ip) : (self.ban now ip duration).Caused n k byHand := by
  intro other o stored
  rw [IpBanList.ban, HashMap.lookup_insert_eq] at stored
  split at stored
  next same =>
    cases stored
    refine ⟨?_, fun _ => .inr (same ▸ hand)⟩
    cases before : self.offenders.lookup ip with
    | none => exact Nat.zero_le _
    | some old => exact same ▸ (caused ip old before).1
  next => exact caused other o stored

end IpBanList

namespace Server

open Config IpBanList Machine Threads Tally

/-- The IP for which a violation of the connection was recorded. -/
def Conn.offended : Conn → Option Text
  | .dropping _ _ ending | .closing _ ending | .closed ending =>
    if ending.offended then some (ipString ending.addr) else none
  | _ => none

/-- The snapshot of the config that decides about its violations. -/
def Conn.config : Conn → Option GateConfig
  | .checkingBan _ _ cfg | .acquiring _ _ cfg _ | .offending cfg _ _ _ => some cfg
  | .limitingRate o | .readingHeader o _ => some o.cfg
  | .checkingBanAgain k | .reserving k => some k.cfg
  | .readingHandshake a | .routing a _ _ _ => some a.cfg
  | .readingStatusRequest r | .answeringStatus r _ | .checkingLimit r | .readingLoginStart r =>
    some r.cfg
  | _ => none

/-- The config of a connection is a snapshot it has taken, now or before. -/
def Inherits (s : Shared) (c c' : Conn) : Prop :=
  c'.config = none ∨ c'.config = c.config ∨ c'.config = some s.app.config

/-- What a step of a connection does to the ban list, and with which config. -/
inductive Blame (s : Shared) (now : Instant) (c : Conn) (s' : Shared) (c' : Conn) : Prop
  | nobody (app : s'.app = s.app) (asked : s'.bans.AskedFrom s.bans now)
    (offended : c'.offended = c.offended) (inherits : Inherits s c c')
  | violation (cfg : GateConfig) (addr : SocketAddr) (global : GlobalConnectionGuard)
    (guard : Option PreLoginGuard) (stage : c = .offending cfg addr global guard)
    (app : s'.app = s.app) (recorded : s'.bans = recordIpViolation cfg s.bans now (ipString addr))
    (offended : c'.offended = if cfg.autoBan.enabled then some (ipString addr) else none)
    (last : c'.config = none)

private theorem caused_recordIpViolation {self : IpBanList} {n : Nat} {k : Text → Nat}
    {byHand : Text → Prop} (caused : self.Caused n (fun ip => k ip + share none ip) byHand)
    {cfg : GateConfig} (limit : n ≤ (maxViolations cfg).toNat) (now : Instant) (ip : Text) :
    (recordIpViolation cfg self now ip).Caused n
      (fun other => k other + share (if cfg.autoBan.enabled then some ip else none) other)
      byHand := by
  unfold recordIpViolation
  cases cfg.autoBan.enabled with
  | false => exact caused
  | true => exact caused.recordViolation now ip limit _ _

variable {s s' : Shared} {c c' : Conn} {choice : Choice} {toLowercase : Text → Text}

/-- The connection keeps its config, and nobody is blamed. -/
theorem Blame.goOn (offended : c'.offended = c.offended) (config : c'.config = c.config)
    (app : s'.app = s.app) (asked : s'.bans.AskedFrom s.bans choice.now) :
    Blame s choice.now c s' c' := .nobody app asked offended (.inr (.inl config))

/-- It needs the config no longer. -/
theorem Blame.leave (offended : c'.offended = c.offended) (config : c'.config = none)
    (app : s'.app = s.app) (asked : s'.bans.AskedFrom s.bans choice.now) :
    Blame s choice.now c s' c' := .nobody app asked offended (.inl config)

private theorem updateRuntime_keeps (runtime : Option Nat) (f : RouteRuntime → RouteRuntime) :
    (Conn.updateRuntime s runtime f).app = s.app ∧
      (Conn.updateRuntime s runtime f).bans = s.bans := by
  cases runtime <;> exact ⟨rfl, rfl⟩

theorem step_blame (stepped : c.Step toLowercase s choice s' c') :
    Blame s choice.now c s' c' := by
  have same : s.bans.AskedFrom s.bans choice.now := .inl rfl
  cases stepped with
  | turnAway peer | turnClientAway k => exact .leave rfl rfl rfl (.inr ⟨_, rfl⟩)
  | pass peer | passClient k => exact .goOn rfl rfl rfl (.inr ⟨_, rfl⟩)
  -- the live config decides what this violation counts for
  | accept | late => exact .nobody rfl same rfl (.inr (.inr rfl))
  | skipBan | uncapped | count | fits | exceeds | undo | enter | paced | throttle | header | direct
  | skipClient | reserve | refuse | badHandshake | route | status | login | request | unspent =>
    exact .goOn rfl rfl rfl same
  | opened | time | discount =>
    refine .leave rfl rfl (updateRuntime_keeps _ _).1 ?_
    rw [(updateRuntime_keeps _ _).2]
    exact same
  | violate cfg addr global guard => exact .violation cfg addr global guard rfl rfl rfl rfl rfl
  | _ => exact .leave rfl rfl rfl same

/-! ### The configs in force -/

/-- The live config and the snapshots that connections go by are all `allowed`. -/
structure Configured (allowed : GateConfig → Prop) (s : Shared) (parties : Multiset Party) :
    Prop where
  live : allowed s.app.config
  snapshots : ∀ conn, Party.connection conn ∈ parties → ∀ cfg ∈ conn.config, allowed cfg

/-- A config that the party brings is `allowed`. -/
def Party.Brings (allowed : GateConfig → Prop) : Party → Prop
  | .calls (.setConfig newConfig) => allowed newConfig
  | _ => True

instance (allowed : GateConfig → Prop) [DecidablePred allowed] :
    DecidablePred (Party.Brings allowed)
  | .calls (.setConfig newConfig) => inferInstanceAs (Decidable (allowed newConfig))
  | .calls (.ban _ _) | .calls (.unban _) | .calls .sweepBans | .calls .sweepRates
  | .calls (.resolveVoice _) | .calls .evictIdleVoice => isTrue trivial
  | .connection _ | .returned _ => isTrue trivial

section Configured

variable {allowed : GateConfig → Prop} {party party' : Party} {parties others : Multiset Party}

theorem Configured.spawn (configured : Configured allowed s parties) (fresh : party.fresh) :
    Configured allowed s (party ::ₘ parties) := by
  refine ⟨configured.live, fun conn member cfg known => ?_⟩
  rcases Multiset.mem_cons.mp member with rfl | old
  · cases conn with
    | accepted peer stream => cases known
    | _ => cases fresh
  · exact configured.snapshots conn old cfg known

theorem Configured.move (configured : Configured allowed s (party ::ₘ others))
    (brings : party.Brings allowed)
    (moved : party.advance toLowercase s choice = some (s', party')) :
    Configured allowed s' (party' ::ₘ others) := by
  have others_snapshots (conn : Conn) (old : Party.connection conn ∈ others) :=
    configured.snapshots conn (Multiset.mem_cons_of_mem old)
  cases party with
  | connection conn =>
    obtain ⟨⟨_, conn'⟩, step, same⟩ := Option.map_eq_some_iff.mp moved
    cases same
    have own := configured.snapshots conn (Multiset.mem_cons_self _ _)
    have app : s'.app = s.app ∧ Inherits s conn conn' := by
      cases step_blame (Conn.step_of_advance step) with
      | nobody app asked offended inherits => exact ⟨app, inherits⟩
      | violation cfg addr global guard stage app recorded offended last =>
        exact ⟨app, .inl last⟩
    obtain ⟨app, inherits⟩ := app
    refine ⟨app ▸ configured.live, fun other member cfg known => ?_⟩
    rcases Multiset.mem_cons.mp member with same | old
    · cases same
      -- a snapshot is dropped, kept, or taken from the live config
      rcases inherits with none | kept | live
      · rw [none] at known
        cases known
      · rw [kept] at known
        exact own cfg known
      · rw [live] at known
        cases known
        exact configured.live
    · exact others_snapshots other old cfg known
  | calls operation =>
    cases moved
    have snapshots (conn : Conn)
        (member : Party.connection conn ∈ .returned operation ::ₘ others) (cfg : GateConfig)
        (known : cfg ∈ conn.config) : allowed cfg := by
      rcases Multiset.mem_cons.mp member with same | old
      · cases same
      · exact others_snapshots conn old cfg known
    cases operation with
    | setConfig newConfig => exact ⟨brings, snapshots⟩
    | ban | unban | sweepBans | sweepRates | resolveVoice | evictIdleVoice =>
      exact ⟨configured.live, snapshots⟩
  | returned operation => cases moved

end Configured

/-! ### What the list says of the connections -/

/-- The limit of violations that a party brings with a new config is at least `n`. -/
def Party.Allows (n : Nat) : Party → Prop
  | .calls (.setConfig newConfig) => n ≤ (maxViolations newConfig).toNat
  | _ => True

instance (n : Nat) : DecidablePred (Party.Allows n)
  | .calls (.setConfig newConfig) =>
    inferInstanceAs (Decidable (n ≤ (maxViolations newConfig).toNat))
  | .calls (.ban _ _) | .calls (.unban _) | .calls .sweepBans | .calls .sweepRates
  | .calls (.resolveVoice _) | .calls .evictIdleVoice => isTrue trivial
  | .connection _ | .returned _ => isTrue trivial

def Party.offended : Party → Option Text
  | .connection conn => conn.offended
  | _ => none

/-- How many connections have ended with a violation of the IP. -/
def offences (parties : Multiset Party) (ip : Text) : Nat := tally Party.offended parties ip

/-- Someone has banned the IP at the console. -/
def BannedByHand (parties : Multiset Party) (ip : Text) : Prop :=
  ∃ duration, Party.returned (.ban ip duration) ∈ parties

/-- Every entry of the ban list has its cause among the parties. -/
structure Justified (n : Nat) (s : Shared) (parties : Multiset Party) : Prop where
  config : n ≤ (maxViolations s.app.config).toNat
  snapshots : ∀ conn, Party.connection conn ∈ parties → ∀ cfg ∈ conn.config,
    n ≤ (maxViolations cfg).toNat
  caused : s.bans.Caused n (offences parties) (BannedByHand parties)

variable {n : Nat} {party party' : Party} {others : Multiset Party}

theorem BannedByHand.cons {ip : Text} (byHand : BannedByHand others ip) (party : Party) :
    BannedByHand (party ::ₘ others) ip := by
  obtain ⟨duration, member⟩ := byHand
  exact ⟨duration, Multiset.mem_cons_of_mem member⟩

/-- A ban by hand is not undone by a party that moves. -/
theorem BannedByHand.move {ip : Text} (byHand : BannedByHand (party ::ₘ others) ip)
    (moved : party.advance toLowercase s choice = some (s', party')) :
    BannedByHand (party' ::ₘ others) ip := by
  obtain ⟨duration, member⟩ := byHand
  rcases Multiset.mem_cons.mp member with rfl | old
  · cases moved
  · exact ⟨duration, Multiset.mem_cons_of_mem old⟩

private theorem offences_cons : offences (party ::ₘ others) =
    fun ip => offences others ip + share party.offended ip := by
  funext ip
  exact tally_cons

theorem Justified.configured {parties : Multiset Party} (justified : Justified n s parties) :
    Configured (fun cfg => n ≤ (maxViolations cfg).toNat) s parties :=
  ⟨justified.config, justified.snapshots⟩

theorem Party.Allows.brings (allows : party.Allows n) :
    party.Brings fun cfg => n ≤ (maxViolations cfg).toNat := by
  cases party with
  | calls operation => cases operation <;> exact allows
  | connection | returned => trivial

theorem Justified.spawn (justified : Justified n s others) (fresh : party.fresh) :
    Justified n s (party ::ₘ others) := by
  have configured := justified.configured.spawn fresh
  have nobody : party.offended = none := by
    cases party with
    | connection conn => cases conn <;> first | rfl | cases fresh
    | calls operation => rfl
    | returned operation => cases fresh
  refine ⟨configured.live, configured.snapshots, ?_⟩
  have same : offences (party ::ₘ others) = offences others := by
    funext ip
    rw [offences, tally_cons, nobody, share_none, Nat.add_zero, offences]
  rw [same]
  exact justified.caused.imp fun ip byHand => byHand.cons party

theorem Justified.move (justified : Justified n s (party ::ₘ others)) (allows : party.Allows n)
    (moved : party.advance toLowercase s choice = some (s', party')) :
    Justified n s' (party' ::ₘ others) := by
  have configured := justified.configured.move allows.brings moved
  refine ⟨configured.live, configured.snapshots, ?_⟩
  cases party with
  | connection conn =>
    obtain ⟨⟨_, conn'⟩, step, same⟩ := Option.map_eq_some_iff.mp moved
    cases same
    have caused := justified.caused.imp fun ip byHand => byHand.move moved
    rw [offences_cons, Party.offended] at caused
    cases step_blame (Conn.step_of_advance step) with
    | nobody app asked offended inherits =>
      rw [offences_cons, Party.offended, offended]
      exact caused.within asked.within
    | violation cfg addr global guard stage app recorded offended last =>
      subst stage
      have limit := justified.snapshots _ (Multiset.mem_cons_self _ _) cfg rfl
      rw [offences_cons, Party.offended, offended, recorded]
      exact caused_recordIpViolation caused limit _ _
  | calls operation =>
    have returned := moved
    cases returned
    have caused : s.bans.Caused n (offences (.returned operation ::ₘ others))
        (BannedByHand (.returned operation ::ₘ others)) := by
      have before := justified.caused.imp fun ip byHand => byHand.move moved
      rwa [offences_cons] at before ⊢
    cases operation with
    | ban ip duration =>
      refine caused.ban _ ip duration ?_
      exact ⟨duration, Multiset.mem_cons_self _ _⟩
    | unban ip => exact caused.within (s.bans.within_unban _ ip)
    | sweepBans => exact caused.within (s.bans.within_sweep _)
    | setConfig | sweepRates | resolveVoice | evictIdleVoice => exact caused
  | returned operation => cases moved

private theorem justified_start (config : GateConfig) (messages : GateMessages)
    (allowed : n ≤ (maxViolations config).toNat) :
    Justified n (start config messages) 0 := by
  refine ⟨allowed, fun conn member => ?_, fun ip o stored => ?_⟩
  · exact absurd member (Multiset.notMem_zero _)
  · cases stored

private theorem justified_step {gate next : Gate} {event : Event Party Choice}
    (justified : Justified n gate.shared gate.threads)
    (allows : AmongCond (fun _ party _ => party.Allows n) gate event)
    (stepped : Gate.step toLowercase gate event = some next) :
    Justified n next.shared next.threads := by
  refine @step_bag _ _ _ Party.fresh (Party.advance toLowercase) (Justified n)
    (fun _ party _ => party.Allows n) ?_ ?_ _ _ _ justified allows stepped
  · exact fun _ _ _ before fresh => before.spawn fresh
  · exact fun _ _ _ _ _ _ before allows moved => before.move allows moved

/-- Where a ban takes `n` violations at least, whichever config is live, an IP that is banned was
banned by hand, or `n` connections from it have ended with a violation. -/
theorem banned_always (n : Nat) (config : GateConfig) (messages : GateMessages)
    (events : List (Event Party Choice)) (allowed : n ≤ (maxViolations config).toNat)
    (reloads : Guarded (Gate.step toLowercase) (AmongCond fun _ party _ => party.Allows n)
      (Gate.start config messages) events) :
    Always (Gate.step toLowercase)
      (fun gate => ∀ ip now, (gate.shared.bans.isBanned now ip).2 →
        n ≤ offences gate.threads ip ∨ BannedByHand gate.threads ip)
      (Gate.start config messages) events := by
  have justified : Always (Gate.step toLowercase)
      (fun gate => Justified n gate.shared gate.threads) (Gate.start config messages) events :=
    always_of_guarded (fun _ _ _ before allows stepped => justified_step before allows stepped)
      (justified_start config messages allowed) reloads
  refine justified.imp fun gate holds ip now banned => ?_
  obtain ⟨until_, known, -⟩ := (gate.shared.bans.isBanned_iff now ip).mp banned
  obtain ⟨o, stored, field⟩ := Option.bind_eq_some_iff.mp known
  exact (holds.caused ip o stored).2 (by rw [field]; rfl)

/-- One violation is enough. -/
def strict : GateConfig := { autoBan := { maxViolations := 1 } }

def scanner : SocketAddr := ⟨.v4 ⟨203, 0, 113, 9⟩, 40000⟩

/-- Five bytes that are the front of no handshake, read at second `t`, and the way out. -/
def garbage (t : Nat) : List (Event Party Choice) :=
  .spawn (.connection (.accepted scanner (List.replicate 5 0xFF))) ::
    List.replicate 11 (.move 0 { now := t * nanosPerSecond, arrivals := [.ready 5] })

/-- The scanner is banned, for its own violation. -/
theorem banned_always_garbage :
    1 ≤ (maxViolations strict).toNat ∧
    Guarded (Gate.step id) (AmongCond fun _ party _ => party.Allows 1)
      (Gate.start strict {}) (garbage 60) ∧
    Always (Gate.step id)
      (fun gate => ∀ ip now, (gate.shared.bans.isBanned now ip).2 →
        1 ≤ offences gate.threads ip ∨ BannedByHand gate.threads ip)
      (Gate.start strict {}) (garbage 60) := by
  have reloads : Guarded (Gate.step id) (AmongCond fun _ party _ => party.Allows 1)
      (Gate.start strict {}) (garbage 60) := by decide +kernel
  have allowed : 1 ≤ (maxViolations strict).toNat := by decide
  exact ⟨allowed, reloads, banned_always 1 strict {} (garbage 60) allowed reloads⟩

example : ((Machine.run (Gate.step id) (Gate.start strict {}) (garbage 60)).map fun gate =>
    (gate.shared.bans.isBanned (61 * nanosPerSecond) (ipString scanner)).2) = some true := by
  decide +kernel

end Server

end MCGate
