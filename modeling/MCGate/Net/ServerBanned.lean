import MCGate.Net.ServerBans

/-!
# A ban keeps its IP out

The ban list is asked twice: about the peer, and behind a load balancer about the client that
the PROXY header names. `letIn` is the IP for which a connection has passed that check. While
an IP is banned no connection is let in for it, whatever the other connections, the sweepers and
the console do meanwhile; those that were let in before are not thrown out. A violation of one
of those that reaches the limit is the one thing besides the console that can move the end of the
ban.
-/
namespace MCGate

namespace IpBanList

variable {self : IpBanList} {ip : Text} {until_ : Instant}

/-- The IP is banned at every time before `until_`. -/
def BannedUntil (self : IpBanList) (ip : Text) (until_ : Instant) : Prop :=
  ∀ now, now < until_ → (self.isBanned now ip).2

private theorem bannedUntil_iff (positive : 0 < until_) :
    self.BannedUntil ip until_ ↔ ∃ last, self.banEnd ip = some last ∧ until_ ≤ last := by
  constructor
  · intro banned
    -- asked at the last moment, the list still says so
    obtain ⟨last, known, after⟩ :=
      (isBanned_iff _ _ _).mp (banned (until_ - 1) (Nat.sub_one_lt (Nat.ne_of_gt positive)))
    exact ⟨last, known, Nat.le_of_pred_lt after⟩
  · rintro ⟨last, known, later⟩ now early
    exact (isBanned_iff _ _ _).mpr ⟨last, known, Nat.lt_of_lt_of_le early later⟩

/-- A ban lasts where each end it may have had before is kept or put off. -/
theorem BannedUntil.of_ends (banned : self.BannedUntil ip until_) {self' : IpBanList}
    (ends : ∀ last, self.banEnd ip = some last → until_ ≤ last →
      ∃ last', self'.banEnd ip = some last' ∧ until_ ≤ last') : self'.BannedUntil ip until_ := by
  rcases Nat.eq_zero_or_pos until_ with rfl | positive
  · exact fun now early => absurd early (Nat.not_lt_zero now)
  · obtain ⟨last, known, later⟩ := (bannedUntil_iff positive).mp banned
    exact (bannedUntil_iff positive).mpr (ends last known later)

variable {now : Instant}

theorem BannedUntil.isBanned (banned : self.BannedUntil ip until_) (early : now < until_)
    (other : Text) : (self.isBanned now other).1.BannedUntil ip until_ := by
  refine banned.of_ends fun last known later => ⟨last, ?_, later⟩
  exact self.banEnd_isBanned now other ip known (Nat.lt_of_lt_of_le early later)

theorem BannedUntil.sweep (banned : self.BannedUntil ip until_) (early : now < until_) :
    (self.sweep now).BannedUntil ip until_ := by
  refine banned.of_ends fun last known later => ⟨last, ?_, later⟩
  exact self.banEnd_sweep now ip known (Nat.lt_of_lt_of_le early later)

theorem BannedUntil.unban (banned : self.BannedUntil ip until_) {other : Text}
    (apart : other ≠ ip) : (self.unban now other).1.BannedUntil ip until_ := by
  refine banned.of_ends fun last known later => ⟨last, ?_, later⟩
  rw [banEnd_unban, if_neg apart.symm, known]

theorem BannedUntil.ban (banned : self.BannedUntil ip until_) {other : Text} {duration : Nat}
    (later : other = ip → until_ ≤ now + duration) :
    (self.ban now other duration).BannedUntil ip until_ := by
  refine banned.of_ends fun last known after => ?_
  rw [banEnd_ban]
  split
  next same => exact ⟨_, rfl, later same.symm⟩
  next => exact ⟨last, known, after⟩

theorem BannedUntil.recordViolation (banned : self.BannedUntil ip until_) {other : Text}
    {maxViolations : UInt32} {window banDuration : Nat}
    (later : other = ip → self.reachesLimit now other maxViolations window →
      until_ ≤ now + banDuration) :
    (self.recordViolation now other maxViolations window banDuration).1.BannedUntil ip until_ := by
  refine banned.of_ends fun last known after => ?_
  rw [banEnd_recordViolation]
  split
  next reached => exact ⟨_, rfl, later reached.1.symm reached.2⟩
  next => exact ⟨last, known, after⟩

end IpBanList

namespace Server

open Config Machine Threads

/-- The IP for which the connection has passed the ban check. -/
def Conn.letIn : Conn → Option Text
  | .acquiring peer _ cfg _ => if cfg.proxyProtocol then none else some (ipString peer)
  | .limitingRate o | .readingHeader o _ =>
    if o.cfg.proxyProtocol then none else some (ipString o.peer)
  | .reserving k => some (ipString k.addr)
  | .readingHandshake a | .routing a _ _ _ => some (ipString a.addr)
  | .readingStatusRequest r | .answeringStatus r _ | .checkingLimit r | .readingLoginStart r
  | .provenReal r _ => some (ipString r.addr)
  | .resolving l | .dialing l _ | .counting l _ | .timing l _ | .registeringVoice l _
  | .sniffing l _ _ => some (ipString l.addr)
  | .relaying v | .discounting v | .unlisting v | .recording v _ _ | .unregisteringVoice v =>
    some (ipString v.addr)
  | _ => none

/-- How a connection gets past the ban check, if it does. -/
inductive Passes (bans : IpBanList) (now : Instant) (c c' : Conn) : Prop
  | stays (same : c'.letIn = c.letIn)
  | leaves (out : c'.letIn = none)
  | enters (ip : Text) (entered : c'.letIn = some ip) (free : (bans.isBanned now ip).2 = false)
  /-- nobody is checked -/
  | unchecked (cfg : GateConfig) (config : c.config = some cfg) (off : cfg.autoBan.enabled = false)

variable {s s' : Shared} {c c' : Conn} {choice : Choice} {toLowercase : Text → Text}

private theorem step_passes (stepped : c.Step toLowercase s choice s' c') :
    Passes s.bans choice.now c c' := by
  cases stepped with
  | pass peer stream cfg direct free =>
    refine .enters (ipString peer) ?_ free
    rw [Conn.letIn, direct]
    rfl
  | skipBan peer stream cfg unasked =>
    -- behind a load balancer the header has still to come
    rcases unasked with behind | off
    · exact .leaves (by rw [Conn.letIn, if_pos behind])
    · exact .unchecked cfg rfl off
  | direct o deadline unexpected =>
    refine .stays ?_
    rw [Conn.letIn, Conn.letIn, unexpected]
    rfl
  | passClient k free => exact .enters (ipString k.addr) rfl free
  | skipClient k off => exact .unchecked k.cfg rfl off
  | accept | uncapped | count | fits | exceeds | undo | enter | paced | reserve | route | status
  | login | request | unspent | loginStart | prove | resolve | connect | failOver | opened | time
  | noVoice | registerVoice | nameless | list | relayed | discount | unlisted | unlist | record =>
    exact .stays rfl
  | _ => exact .leaves rfl

/-! ### In a run -/

/-- A violation that the connection records next: under which config, and for whom. -/
def Conn.offence : Conn → Option (GateConfig × SocketAddr)
  | .offending cfg addr _ _ => some (cfg, addr)
  | _ => none

/-- A violation under `cfg` bans the IP. -/
def reachesLimit (cfg : GateConfig) (bans : IpBanList) (now : Instant) (ip : Text) : Prop :=
  bans.reachesLimit now ip (maxViolations cfg) (fromMillis cfg.autoBan.violationWindowMillis)

instance (cfg : GateConfig) (bans : IpBanList) (now : Instant) (ip : Text) :
    Decidable (reachesLimit cfg bans now ip) :=
  inferInstanceAs (Decidable (bans.reachesLimit _ _ _ _))

/-- The end of the ban of `ip` is not moved to before `until_`, and auto-ban stays switched on. -/
def Party.Respects (ip : Text) (until_ now : Instant) (bans : IpBanList) : Party → Prop
  | .calls (.ban other duration) => other = ip → until_ ≤ now + duration
  | .calls (.unban other) => other ≠ ip
  | .calls (.setConfig newConfig) => newConfig.autoBan.enabled
  | .connection conn => ∀ offence ∈ conn.offence, ipString offence.2 = ip →
    reachesLimit offence.1 bans now (ipString offence.2) →
    until_ ≤ now + fromMillis offence.1.autoBan.banDurationMillis
  | _ => True

instance (ip : Text) (until_ now : Instant) (bans : IpBanList) :
    DecidablePred (Party.Respects ip until_ now bans)
  | .calls (.ban other duration) =>
    inferInstanceAs (Decidable (other = ip → until_ ≤ now + duration))
  | .calls (.unban other) => inferInstanceAs (Decidable (other ≠ ip))
  | .calls (.setConfig newConfig) =>
    inferInstanceAs (Decidable (newConfig.autoBan.enabled = true))
  | .connection conn =>
    inferInstanceAs (Decidable (∀ offence ∈ conn.offence, ipString offence.2 = ip →
      reachesLimit offence.1 bans now (ipString offence.2) →
      until_ ≤ now + fromMillis offence.1.autoBan.banDurationMillis))
  | .calls .sweepBans | .calls .sweepRates | .calls (.resolveVoice _) | .calls .evictIdleVoice
  | .returned _ => isTrue trivial

/-- Before the ban ends, and without an order to the contrary. -/
def DuringBan (ip : Text) (until_ : Instant) (s : Shared) (party : Party) (choice : Choice) :
    Prop := choice.now < until_ ∧ party.Respects ip until_ choice.now s.bans

instance (ip : Text) (until_ : Instant) (s : Shared) (party : Party) (choice : Choice) :
    Decidable (DuringBan ip until_ s party choice) := inferInstanceAs (Decidable (_ ∧ _))

/-- The connection at position `i` has been let in for `ip`. -/
def LetIn (threads : List Party) (i : Nat) (ip : Text) : Prop :=
  ∃ conn, threads[i]? = some (.connection conn) ∧ conn.letIn = some ip

/-- Auto-ban is switched on, in the live config and in the snapshots that are still in use. -/
structure Enabled (gate : Gate) : Prop where
  config : gate.shared.app.config.autoBan.enabled
  snapshots : ∀ conn, Party.connection conn ∈ gate.threads → ∀ cfg ∈ conn.config,
    cfg.autoBan.enabled

/-- What the ban list and the configs are like while the ban lasts. -/
structure Enforced (gate : Gate) (ip : Text) (until_ : Instant) : Prop extends Enabled gate where
  banned : gate.shared.bans.BannedUntil ip until_

variable {ip : Text} {until_ : Instant} {gate next : Gate} {event : Event Party Choice}
  {party party' : Party}

/-- A new connection has not been let in. -/
theorem fresh_letIn (fresh : party.fresh) {conn : Conn} (same : party = .connection conn) :
    conn.letIn = none := by
  subst same
  cases conn with
  | accepted => rfl
  | _ => cases fresh

private theorem banned_recordIpViolation {bans : IpBanList} (banned : bans.BannedUntil ip until_)
    (cfg : GateConfig) {now : Instant} {other : Text}
    (later : other = ip → reachesLimit cfg bans now other →
      until_ ≤ now + fromMillis cfg.autoBan.banDurationMillis) :
    (recordIpViolation cfg bans now other).BannedUntil ip until_ := by
  unfold recordIpViolation
  split
  · exact banned
  · exact banned.recordViolation later

/-- A connection keeps the ban, of its own IP or another's. -/
theorem advance_banned (banned : s.bans.BannedUntil ip until_)
    (during : DuringBan ip until_ s (.connection c) choice)
    (moved : c.advance toLowercase s choice = some (s', c')) :
    s'.bans.BannedUntil ip until_ := by
  obtain ⟨early, respects⟩ := during
  cases step_blame (Conn.step_of_advance moved) with
  | nobody app asked offended inherits =>
    rcases asked with same | ⟨other, same⟩
    · exact same ▸ banned
    · rw [same]
      exact banned.isBanned early other
  | violation cfg addr global guard stage app recorded offended last =>
    subst stage
    rw [recorded]
    exact banned_recordIpViolation banned cfg (respects (cfg, addr) rfl)

/-- So does a call that respects it. -/
theorem apply_banned {operation : Operation} (banned : s.bans.BannedUntil ip until_)
    (during : DuringBan ip until_ s (.calls operation) choice) :
    (operation.apply s choice.now).bans.BannedUntil ip until_ := by
  obtain ⟨early, respects⟩ := during
  cases operation with
  | ban other duration => exact banned.ban respects
  | unban other => exact banned.unban respects
  | sweepBans => exact banned.sweep early
  | setConfig | sweepRates | resolveVoice | evictIdleVoice => exact banned

private theorem enabled_iff_configured : Enabled gate ↔
    Configured (fun cfg => cfg.autoBan.enabled) gate.shared (gate.threads : Multiset Party) :=
  ⟨fun enabled => ⟨enabled.config, enabled.snapshots⟩,
    fun configured => ⟨configured.live, configured.snapshots⟩⟩

theorem Party.Respects.brings {now : Instant} {bans : IpBanList}
    (respects : party.Respects ip until_ now bans) :
    party.Brings fun cfg => cfg.autoBan.enabled := by
  cases party with
  | calls operation =>
    cases operation with
    | setConfig newConfig => exact respects
    | _ => trivial
  | connection | returned => trivial

theorem Enforced.spawn (enforced : Enforced gate ip until_) (fresh : party.fresh) :
    Enforced { gate with threads := gate.threads ++ [party] } ip until_ := by
  have configured := (enabled_iff_configured.mp enforced.toEnabled).spawn fresh
  refine ⟨⟨configured.live, fun conn member => configured.snapshots conn ?_⟩, enforced.banned⟩
  rcases List.mem_append.mp member with old | new
  · exact Multiset.mem_cons_of_mem old
  · exact Multiset.mem_cons.mpr (.inl (List.mem_singleton.mp new))

theorem Enforced.move (enforced : Enforced gate ip until_) {i : Nat}
    (at_i : gate.threads[i]? = some party)
    (during : DuringBan ip until_ gate.shared party choice)
    (moved : party.advance toLowercase gate.shared choice = some (s', party')) :
    Enforced ⟨s', gate.threads.set i party'⟩ ip until_ := by
  obtain ⟨others, before, after⟩ := @coe_set _ _ _ _ party' at_i
  have configured := enabled_iff_configured.mp enforced.toEnabled
  rw [before] at configured
  have enabled := configured.move during.2.brings moved
  rw [← after] at enabled
  refine ⟨enabled_iff_configured.mpr enabled, ?_⟩
  cases party with
  | connection conn =>
    obtain ⟨⟨_, conn'⟩, step, same⟩ := Option.map_eq_some_iff.mp moved
    cases same
    exact advance_banned enforced.banned during step
  | calls operation =>
    cases moved
    exact apply_banned enforced.banned during
  | returned operation => cases moved

/-- Only those are let in for the IP that were let in before. -/
structure KeptOut (first : List Party) (ip : Text) (until_ : Instant) (gate : Gate) : Prop where
  enforced : Enforced gate ip until_
  letIn : ∀ i, LetIn gate.threads i ip → LetIn first i ip

private theorem LetIn.of_spawn {threads : List Party} {i : Nat} (fresh : party.fresh)
    (letIn : LetIn (threads ++ [party]) i ip) : LetIn threads i ip := by
  obtain ⟨conn, at_i, known⟩ := letIn
  rw [List.getElem?_append] at at_i
  split at at_i
  · exact ⟨conn, at_i, known⟩
  · have new := List.mem_singleton.mp (List.mem_of_getElem? at_i)
    rw [fresh_letIn fresh new.symm] at known
    cases known

/-- A connection that moves while the ban lasts is not let in by its move. -/
theorem LetIn.of_move {i j : Nat} (enforced : Enforced gate ip until_)
    (at_j : gate.threads[j]? = some party)
    (during : DuringBan ip until_ gate.shared party choice)
    (moved : party.advance toLowercase gate.shared choice = some (s', party'))
    (letIn : LetIn (gate.threads.set j party') i ip) : LetIn gate.threads i ip := by
  obtain ⟨conn', at_i, known⟩ := letIn
  by_cases same : j = i
  · subst same
    rw [List.getElem?_set_self (List.getElem?_eq_some_iff.mp at_j).1] at at_i
    cases at_i
    cases party with
    | connection conn =>
      obtain ⟨⟨_, _⟩, step, same⟩ := Option.map_eq_some_iff.mp moved
      cases same
      cases step_passes (Conn.step_of_advance step) with
      | stays same => exact ⟨conn, at_j, same ▸ known⟩
      | leaves out =>
        rw [out] at known
        cases known
      | enters other entered free =>
        rw [entered] at known
        cases known
        rw [enforced.banned choice.now during.1] at free
        cases free
      | unchecked cfg config off =>
        have on := enforced.snapshots conn (List.mem_of_getElem? at_j) cfg config
        rw [off] at on
        cases on
    | calls operation => cases moved
    | returned operation => cases moved
  · rw [List.getElem?_set_ne same] at at_i
    exact ⟨conn', at_i, known⟩

private theorem keptOut_step {first : List Party} (kept : KeptOut first ip until_ gate)
    (during : MoveCond (DuringBan ip until_) gate event)
    (stepped : Gate.step toLowercase gate event = some next) :
    KeptOut first ip until_ next := by
  obtain ⟨enforced, letIn⟩ := kept
  cases event with
  | spawn party =>
    obtain ⟨fresh, rfl⟩ := step_spawn_eq_some.mp stepped
    exact ⟨enforced.spawn fresh, fun i known => letIn i (known.of_spawn fresh)⟩
  | move j choice =>
    obtain ⟨party, s', party', at_j, moved, rfl⟩ := step_move_eq_some.mp stepped
    have now := during party at_j
    exact ⟨enforced.move at_j now moved, fun i known =>
      letIn i (known.of_move enforced at_j now moved)⟩

/-- From a state on in which an IP is banned until `until_`, until then no connection is let in
for it: whatever connections, sweeps and reloads do in between, one that is let in for the IP
was let in already. -/
theorem banned_kept_out (gate : Gate) (ip : Text) (until_ : Instant)
    (events : List (Event Party Choice)) (enabled : Enabled gate)
    (banned : gate.shared.bans.BannedUntil ip until_)
    (during : Guarded (Gate.step toLowercase) (MoveCond (DuringBan ip until_)) gate events) :
    Always (Gate.step toLowercase)
      (fun next => next.shared.bans.BannedUntil ip until_ ∧
        ∀ i, LetIn next.threads i ip → LetIn gate.threads i ip) gate events := by
  have kept : Always (Gate.step toLowercase) (KeptOut gate.threads ip until_) gate events :=
    always_of_guarded (fun _ _ _ before during stepped => keptOut_step before during stepped)
      ⟨⟨enabled, banned⟩, fun _ => id⟩ during
  exact kept.imp fun next ⟨enforced, letIn⟩ => ⟨enforced.banned, letIn⟩

def hour : Nat := 3600 * nanosPerSecond

/-- The scanner was banned for an hour when the gate started. -/
def locked : Gate :=
  ⟨{ Server.start strict {} with bans := IpBanList.empty.ban 0 (ipString scanner) hour }, []⟩

/-- It comes after a minute, and a sweep comes in between. -/
def visit : List (Event Party Choice) :=
  let now : Choice := { now := 60 * nanosPerSecond }
  [.spawn (.connection (.accepted scanner [])), .move 0 now, .spawn (.calls .sweepBans),
    .move 1 now, .move 0 now]

/-- The scanner is turned away. -/
theorem banned_kept_out_scanner :
    Enabled locked ∧ locked.shared.bans.BannedUntil (ipString scanner) hour ∧
    Guarded (Gate.step id) (MoveCond (DuringBan (ipString scanner) hour)) locked visit ∧
    Always (Gate.step id)
      (fun next => next.shared.bans.BannedUntil (ipString scanner) hour ∧
        ∀ i, LetIn next.threads i (ipString scanner) →
          LetIn locked.threads i (ipString scanner)) locked visit := by
  have enabled : Enabled locked := ⟨by decide, fun conn member => by cases member⟩
  have banned : locked.shared.bans.BannedUntil (ipString scanner) hour := fun now early =>
    (IpBanList.isBanned_iff _ _ _).mpr ⟨hour, by decide, early⟩
  have during : Guarded (Gate.step id) (MoveCond (DuringBan (ipString scanner) hour))
      locked visit := by decide +kernel
  exact ⟨enabled, banned, during, banned_kept_out locked _ _ visit enabled banned during⟩

example : ((Machine.run (Gate.step id) locked visit).map fun gate => gate.threads.map Party.ended) =
    some [true, true] := by decide +kernel

end Server

end MCGate
