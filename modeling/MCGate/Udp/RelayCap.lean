import Mathlib.Algebra.GroupWithZero.Nat
import MCGate.Std.Display
import MCGate.Udp.RelayView

/-!
# The limit on all sessions

`maxSessions` is documented as the limit on the sessions of all UDP paths combined. Each relay
compares it with the length of its own map, under its own creation lock: no map grows beyond the
limit, but each of several maps may grow up to it. The sum is within the limit for one path, and
for no more than one.
-/
namespace MCGate.UdpRelay

open Config Machine Threads
open VoiceRelay (Index Packet Session Shared)

/-- The live sessions of all paths. -/
def Paths.liveSessions (s : Paths) : Nat :=
  (s.relays.map fun pool => pool.shared.sessions.entries.length).sum

/-! ### One relay keeps to the limit -/

namespace Task

variable {throttle : UdpThrottleConfig} {s s' : Relay} {task task' : Task} {choice : Choice}

/-- The task found the relay below its limit. -/
def below : Task → Bool
  | .belowCap _ _ | .perIpRead _ _ _ | .slotAcquired _ _ _ | .socketOpened _ _ _ => true
  | _ => false

/-- The limit that the task has read. -/
def readCap : Task → Option Int32
  | .capRead _ _ globalCap => some globalCap
  | _ => none

private theorem holdsLock_of_below (below : task.below) : task.holdsLock := by
  cases task <;> first | rfl | cases below

private theorem unchecked_of_fresh (ready : task.fresh) :
    task.below = false ∧ task.readCap = none := by
  cases task <;> first | exact ⟨rfl, rfl⟩ | cases ready

private theorem below_of_advance (moved : advance throttle s task choice = some (s', task'))
    (below : task'.below) :
    task.below ∨ ∃ globalCap, task.readCap = some globalCap ∧ s.atCap globalCap = false := by
  cases task with
  | closing rest => cases rest <;> simp only [advance] at moved <;> grind [Task.below]
  | capRead packet route globalCap =>
    simp only [advance] at moved
    grind [Task.below, Task.readCap]
  | _ =>
    simp only [advance] at moved
    grind [Task.below]

private theorem readCap_of_advance {globalCap : Int32}
    (moved : advance throttle s task choice = some (s', task'))
    (read : task'.readCap = some globalCap) : globalCap = throttle.maxSessions := by
  cases task with
  | closing rest => cases rest <;> simp only [advance] at moved <;> grind [Task.readCap]
  | _ =>
    simp only [advance] at moved
    grind [Task.readCap]

end Task

/-- The map of a relay only grows under the lock, by one session. -/
theorem View.Moves.length {v v' : View} {t t' : Task} (moves : Moves v t v' t') :
    v'.sessions.entries.length ≤ v.sessions.entries.length ∨
      (t.below ∧ t'.below = false ∧
        v'.sessions.entries.length ≤ v.sessions.entries.length + 1) := by
  cases moves with
  | insert =>
    refine .inr ⟨rfl, rfl, ?_⟩
    simp only [AList.entries_insert, List.length_cons]
    exact Nat.succ_le_succ (List.kerase_sublist _ _).length_le
  | remove found next => exact .inl (List.kerase_sublist _ _).length_le
  | _ => exact .inl (Nat.le_refl _)

/-- The comparison of `len() as i32` with a limit that is on. -/
theorem atCap_iff (s : Shared) {max : Int32} (on : 0 < max)
    (small : s.sessions.entries.length < 2 ^ 31) :
    s.atCap max ↔ max.toNatClampNeg ≤ s.sessions.entries.length := by
  have cast := Int32.ofNat_toNatClampNeg max (Int32.le_of_lt on)
  rw [← Int32.ofNat_le_iff_le max.toNatClampNeg_lt small, cast]
  simp [Shared.atCap, on]

/-- The map is within the limit, and below it for a task that found it so. -/
structure CapInv (max : Int32) (s : Relay) (tasks : Multiset Task) : Prop where
  parallel : s.Parallel
  exclusive : Exclusive s.view tasks
  within : s.sessions.entries.length ≤ max.toNatClampNeg
  read : ∀ task ∈ tasks, ∀ globalCap, task.readCap = some globalCap → globalCap = max
  room : ∀ task ∈ tasks, task.below → s.sessions.entries.length < max.toNatClampNeg

namespace CapInv

variable {max : Int32} {s : Relay} {tasks : Multiset Task}

theorem new (max : Int32) (kind : Kind) : CapInv max (.new kind) 0 := by
  have empty : (Relay.new kind).sessions.entries.length = 0 := by cases kind <;> rfl
  refine ⟨by cases kind <;> rfl, ⟨by cases kind <;> rfl, by simp⟩, ?_, by simp, by simp⟩
  rw [empty]
  exact Nat.zero_le _

theorem spawn {task : Task} (inv : CapInv max s tasks) (ready : task.fresh) :
    CapInv max s (task ::ₘ tasks) := by
  obtain ⟨above, unread⟩ := Task.unchecked_of_fresh ready
  refine ⟨inv.parallel, inv.exclusive.spawn ready, inv.within, ?_, ?_⟩
  · intro other member globalCap read
    rcases Multiset.mem_cons.mp member with rfl | old
    · rw [unread] at read
      cases read
    · exact inv.read other old globalCap read
  · intro other member below
    rcases Multiset.mem_cons.mp member with rfl | old
    · rw [above] at below
      cases below
    · exact inv.room other old below

theorem move {throttle : UdpThrottleConfig} {s' : Relay} {task task' : Task} {choice : Choice}
    {others : Multiset Task} (on : 0 < throttle.maxSessions)
    (inv : CapInv throttle.maxSessions s (task ::ₘ others))
    (moved : Task.advance throttle s task choice = some (s', task')) :
    CapInv throttle.maxSessions s' (task' ::ₘ others) := by
  have here : task ∈ task ::ₘ others := Multiset.mem_cons_self ..
  have mine (below : task'.below) :
      s.sessions.entries.length < throttle.maxSessions.toNatClampNeg := by
    rcases Task.below_of_advance moved below with before | ⟨globalCap, read, free⟩
    · exact inv.room task here before
    · rw [inv.read task here globalCap read] at free
      have small := inv.within.trans_lt throttle.maxSessions.toNatClampNeg_lt
      rw [Bool.eq_false_iff, ne_eq, atCap_iff s.toShared on small, Nat.not_le] at free
      exact free
  have grows := (Task.moves_of_advance inv.parallel moved).length
  have parallel := Task.parallel_of_advance inv.parallel moved
  have exclusive := inv.exclusive.move inv.parallel moved
  have read : ∀ other ∈ task' ::ₘ others, ∀ globalCap, other.readCap = some globalCap →
      globalCap = throttle.maxSessions := by
    intro other member globalCap read
    rcases Multiset.mem_cons.mp member with rfl | old
    · exact Task.readCap_of_advance moved read
    · exact inv.read other (Multiset.mem_cons_of_mem old) globalCap read
  rcases grows with shorter | ⟨before, after, longer⟩
  · refine ⟨parallel, exclusive, shorter.trans inv.within, read, fun other member below => ?_⟩
    apply shorter.trans_lt
    rcases Multiset.mem_cons.mp member with rfl | old
    · exact mine below
    · exact inv.room other (Multiset.mem_cons_of_mem old) below
  · -- the task that inserts has the lock, so that nobody else counts on the room it takes
    have room := inv.room task here before
    refine ⟨parallel, exclusive, longer.trans room, read, fun other member below => ?_⟩
    rcases Multiset.mem_cons.mp member with rfl | old
    · rw [after] at below
      cases below
    · have free := inv.exclusive.holders.others_free (Task.holdsLock_of_below before) other old
      rw [Task.holdsLock_of_below below] at free
      cases free

end CapInv

/-- The reloads of a run leave `maxSessions` as it is. -/
def KeepsMax (max : Int32) : PathEvent → Prop
  | .store throttle => throttle.maxSessions = max
  | .relay _ _ => True

private theorem Paths.length_relays_step {s s' : Paths} {event : PathEvent}
    (stepped : s.step event = some s') : s'.relays.length = s.relays.length := by
  cases event with
  | store throttle =>
    cases stepped
    rfl
  | relay r event =>
    obtain ⟨pool, next, -, -, rfl⟩ := Paths.step_relay_eq_some.mp stepped
    exact List.length_set

/-- As many relays as at the start, each within the limit, which stays. -/
structure Paths.Capped (max : Int32) (n : Nat) (s : Paths) : Prop where
  fixed : s.throttle.maxSessions = max
  length : s.relays.length = n
  each : ∀ pool ∈ s.relays, CapInv max pool.shared pool.threads

private theorem Paths.capped_start (throttle : UdpThrottleConfig) (kinds : List Kind) :
    (start throttle kinds).Capped throttle.maxSessions kinds.length := by
  refine ⟨rfl, List.length_map _, ?_⟩
  exact @forall_start throttle kinds
    (fun pool => CapInv throttle.maxSessions pool.shared pool.threads) (CapInv.new _)

theorem Paths.Capped.step {max : Int32} {n : Nat} (on : 0 < max) {s s' : Paths}
    {event : PathEvent} (capped : s.Capped max n) (keeps : KeepsMax max event)
    (stepped : s.step event = some s') : s'.Capped max n := by
  refine ⟨?_, (length_relays_step stepped).trans capped.length, ?_⟩
  · cases event with
    | store throttle =>
      cases stepped
      exact keeps
    | relay r event =>
      obtain ⟨pool, next, -, -, rfl⟩ := step_relay_eq_some.mp stepped
      exact capped.fixed
  · refine step_relays ?_ capped.each (relayCond_of_forall fun _ _ => trivial) stepped
    intro pool event next inv _ stepped
    refine step_bag ?_ ?_ inv (amongCond_of_forall fun _ _ _ => trivial) stepped
    · exact fun _ _ _ inv ready => inv.spawn ready
    · intro shared task others choice shared' task' inv _ moved
      rw [← capped.fixed] at on inv ⊢
      exact inv.move on moved

/-- One path is within the limit. -/
theorem Paths.Capped.liveSessions_le {max : Int32} {n : Nat} {s : Paths}
    (capped : s.Capped max n) (one : n ≤ 1) : s.liveSessions ≤ max.toNatClampNeg := by
  have length := capped.length
  unfold liveSessions
  match relays : s.relays with
  | [] => exact Nat.zero_le _
  | [pool] =>
    have within := (capped.each pool (by simp [relays])).within
    simpa using within
  | _ :: _ :: _ =>
    rw [relays] at length
    simp only [List.length_cons] at length
    omega

/-! ### Several relays fill up side by side -/

private theorem Counts.acquire_absent {counts : HashMap Text Int32} {ip : Text}
    (absent : counts.lookup ip = none) (max : Int32) :
    (acquire counts max ip).2 ∧
      ∀ other, other ≠ ip → (acquire counts max ip).1.lookup other = counts.lookup other := by
  unfold acquire
  split
  · exact ⟨rfl, fun _ _ => rfl⟩
  next on =>
    have first : ¬ max < (counts.lookup ip).getD 0 + 1 := by
      rw [absent, Option.getD_none, Int32.zero_add]
      rw [Int32.not_le, Int32.lt_iff_toInt_lt] at on
      rw [Int32.lt_iff_toInt_lt]
      exact Int.not_lt.mpr on
    simp only [first, if_false]
    exact ⟨trivial, fun other apart => by rw [HashMap.lookup_insert_eq, if_neg apart]⟩

/-- A datagram can open a session. -/
structure Relay.Admits (s : Relay) (max : Int32) (packet : Packet) : Prop where
  unlocked : s.createLock = false
  unmapped : s.sessions.lookup packet.clientAddr = none
  uncounted : s.sessionsPerIp.lookup packet.clientIp = none
  belowCap : s.atCap max = false

namespace Relay.Admits

variable {throttle : UdpThrottleConfig} {s : Relay} {packet : Packet}

/-- What the environment grants: a socket, and a route where one is needed. -/
def granted (packet : Packet) : Choice := ⟨0, true, some ⟨[], packet.clientAddr, 0, 0⟩⟩

/-- The task gets the lock and a route. -/
theorem reaches_routed (admits : s.Admits throttle.maxSessions packet) :
    ∃ route, Relation.ReflTransGen (Advances (Task.advance throttle)) (s, .arrived packet)
      ({ s with createLock := true }, .routed packet route) := by
  have waiting : Advances (Task.advance throttle) (s, .arrived packet) (s, .waiting packet) :=
    ⟨granted packet, by simp [Task.advance, admits.unmapped]⟩
  have locked : Advances (Task.advance throttle) (s, .waiting packet)
      ({ s with createLock := true }, .locked packet) :=
    ⟨granted packet, by simp [Task.advance, admits.unlocked]⟩
  have upToLock := (Relation.ReflTransGen.single waiting).tail locked
  have kinds : (∃ backend, s.kind = .proxy backend) ∨
      ∃ expectProxyProtocol, s.kind = .voice expectProxyProtocol := by
    cases s.kind <;> simp
  rcases kinds with ⟨backend, kind⟩ | ⟨expectProxyProtocol, kind⟩
  · refine ⟨⟨[], backend, 0, 0⟩, upToLock.tail ⟨granted packet, ?_⟩⟩
    simp [Task.advance, admits.unmapped, kind]
  · have unrouted : Advances (Task.advance throttle)
        ({ s with createLock := true }, .locked packet)
        ({ s with createLock := true }, .unrouted packet) :=
      ⟨granted packet, by simp [Task.advance, admits.unmapped, kind]⟩
    exact ⟨⟨[], packet.clientAddr, 0, 0⟩, (upToLock.tail unrouted).tail ⟨granted packet, rfl⟩⟩

/-- It is admitted. -/
theorem reaches_socketOpened (admits : s.Admits throttle.maxSessions packet)
    (route : VoiceRouting.Entry) :
    ∃ reserved, Relation.ReflTransGen (Advances (Task.advance throttle))
      ({ s with createLock := true }, .routed packet route)
      ({ s with
        sessionsPerIp :=
          (Counts.acquire s.sessionsPerIp throttle.maxSessionsPerIp packet.clientIp).1
        createLock := true }, .socketOpened packet route reserved) := by
  obtain ⟨admitted, -⟩ := Counts.acquire_absent admits.uncounted throttle.maxSessionsPerIp
  have capRead : Advances (Task.advance throttle)
      ({ s with createLock := true }, .routed packet route)
      ({ s with createLock := true }, .capRead packet route throttle.maxSessions) :=
    ⟨granted packet, rfl⟩
  have belowCap : Advances (Task.advance throttle)
      ({ s with createLock := true }, .capRead packet route throttle.maxSessions)
      ({ s with createLock := true }, .belowCap packet route) :=
    ⟨granted packet, by simp [Task.advance, admits.belowCap]⟩
  have perIpRead : Advances (Task.advance throttle)
      ({ s with createLock := true }, .belowCap packet route)
      ({ s with createLock := true }, .perIpRead packet route throttle.maxSessionsPerIp) :=
    ⟨granted packet, rfl⟩
  have slotAcquired : Advances (Task.advance throttle)
      ({ s with createLock := true }, .perIpRead packet route throttle.maxSessionsPerIp)
      ({ s with
        sessionsPerIp :=
          (Counts.acquire s.sessionsPerIp throttle.maxSessionsPerIp packet.clientIp).1
        createLock := true },
        .slotAcquired packet route (decide (0 < throttle.maxSessionsPerIp))) :=
    ⟨granted packet, by simp [Task.advance, Counts.acquireIpSlot_eq, admitted]⟩
  exact ⟨_, ((((Relation.ReflTransGen.single capRead).tail belowCap).tail perIpRead).tail
    slotAcquired).tail ⟨granted packet, rfl⟩⟩

/-- The session is inserted, the lock given back and the reader started. -/
theorem reaches_done (s : Relay) (packet : Packet) (route : VoiceRouting.Entry) (reserved : Bool) :
    ∃ s' : Relay, Relation.ReflTransGen (Advances (Task.advance throttle))
        (s, .socketOpened packet route reserved) (s', .done) ∧
      s'.createLock = false ∧
      s'.sessions = s.sessions.insert packet.clientAddr s.opened.length ∧
      s'.sessionsPerIp = s.sessionsPerIp := by
  let opened := s.insert packet route 0 reserved
  let arc := s.opened.length
  let indexed := opened.withIndex (opened.insertVia packet.via arc)
  let unlocked : Relay := { indexed with createLock := false }
  let spawned := unlocked.modifyLife arc fun life => { life with reader := .running }
  let stored := spawned.modifyLife arc fun life => { life with readerHandle := true }
  let final : Relay := { stored with toShared := stored.forward arc packet.content }
  have step {a b : Relay × Task}
      (moved : Task.advance throttle a.1 a.2 (granted packet) = some b) :
      Advances (Task.advance throttle) a b := ⟨granted packet, moved⟩
  have inserted : Advances (Task.advance throttle) (s, .socketOpened packet route reserved)
      (opened, .inserted packet arc) := step rfl
  have indexing : Advances (Task.advance throttle) (opened, .inserted packet arc)
      (indexed, .indexed packet arc) := step rfl
  have unlocking : Advances (Task.advance throttle) (indexed, .indexed packet arc)
      (unlocked, .unlocked packet arc) := step rfl
  have spawning : Advances (Task.advance throttle) (unlocked, .unlocked packet arc)
      (spawned, .spawned packet arc) := step rfl
  have storing : Advances (Task.advance throttle) (spawned, .spawned packet arc)
      (stored, .forwarding packet.content arc) := step rfl
  have forwarding : Advances (Task.advance throttle) (stored, .forwarding packet.content arc)
      (final, .done) := step rfl
  have sessions : indexed.sessions = opened.sessions := (Index.insertVia_frame _ _ _).1
  have forward : final.view = stored.view := Relay.view_forward stored arc packet.content
  refine ⟨final, (((((Relation.ReflTransGen.single inserted).tail indexing).tail unlocking).tail
    spawning).tail storing).tail forwarding, rfl, ?_, ?_⟩
  · exact (congrArg View.sessions forward).trans sessions
  · exact congrArg View.sessionsPerIp forward

/-- The task of the datagram, left alone, opens the session. -/
theorem opens (admits : s.Admits throttle.maxSessions packet) :
    ∃ s' : Relay, Relation.ReflTransGen (Advances (Task.advance throttle))
        (s, .arrived packet) (s', .done) ∧
      s'.createLock = false ∧
      (∃ arc, s'.sessions = s.sessions.insert packet.clientAddr arc) ∧
      ∀ ip, ip ≠ packet.clientIp → s'.sessionsPerIp.lookup ip = s.sessionsPerIp.lookup ip := by
  obtain ⟨route, routed⟩ := admits.reaches_routed
  obtain ⟨reserved, opened⟩ := admits.reaches_socketOpened route
  obtain ⟨s', closing, unlocked, sessions, counts⟩ :=
    @reaches_done throttle _ packet route reserved
  refine ⟨s', (routed.trans opened).trans closing, unlocked, ⟨_, sessions⟩, ?_⟩
  rw [counts]
  exact (Counts.acquire_absent admits.uncounted throttle.maxSessionsPerIp).2

end Relay.Admits

/-! #### Filling a relay -/

/-- Clients that differ in their IPs. -/
def clientAt (j : Nat) : Packet :=
  let addr : SocketAddr :=
    ⟨.v4 ⟨UInt8.ofNat (j / 16777216), UInt8.ofNat (j / 65536), UInt8.ofNat (j / 256),
      UInt8.ofNat j⟩, 4000⟩
  ⟨addr, addr, []⟩

private theorem clientAt_injective {i j : Nat} (hi : i < 2 ^ 32) (hj : j < 2 ^ 32)
    (same : (clientAt i).clientIp = (clientAt j).clientIp) : i = j := by
  have ips := displayIp_injective same
  simp only [clientAt, IpAddr.v4.injEq, Ipv4Addr.mk.injEq, ← UInt8.toNat_inj,
    UInt8.toNat_ofNat'] at ips
  omega

/-- `k` clients have a session, and nothing is known of those after them. -/
structure Relay.Filled (s : Relay) (k : Nat) : Prop where
  unlocked : s.createLock = false
  length : s.sessions.entries.length = k
  unmapped : ∀ j, k ≤ j → j < 2 ^ 32 → s.sessions.lookup (clientAt j).clientAddr = none
  uncounted : ∀ j, k ≤ j → j < 2 ^ 32 → s.sessionsPerIp.lookup (clientAt j).clientIp = none

private theorem Relay.filled_new (kind : Kind) : (Relay.new kind).Filled 0 := by
  cases kind <;> exact ⟨rfl, rfl, fun _ _ _ => rfl, fun _ _ _ => rfl⟩

theorem Relay.Filled.succ {throttle : UdpThrottleConfig} (on : 0 < throttle.maxSessions)
    {s : Relay} {k : Nat} (filled : s.Filled k) (room : k < throttle.maxSessions.toNatClampNeg) :
    ∃ s' : Relay, Relation.ReflTransGen (Advances (Task.advance throttle))
      (s, .arrived (clientAt k)) (s', .done) ∧ s'.Filled (k + 1) := by
  have small : k < 2 ^ 31 := room.trans throttle.maxSessions.toNatClampNeg_lt
  have free : s.atCap throttle.maxSessions = false := by
    rw [Bool.eq_false_iff, ne_eq, atCap_iff s.toShared on (filled.length ▸ small), filled.length]
    exact Nat.not_le.mpr room
  have admits : s.Admits throttle.maxSessions (clientAt k) :=
    ⟨filled.unlocked, filled.unmapped k (Nat.le_refl k) (by omega),
      filled.uncounted k (Nat.le_refl k) (by omega), free⟩
  obtain ⟨s', goes, unlocked, ⟨arc, sessions⟩, counts⟩ := admits.opens
  have apart (j : Nat) (later : k + 1 ≤ j) (inRange : j < 2 ^ 32) :
      (clientAt j).clientIp ≠ (clientAt k).clientIp := by
    intro same
    have := clientAt_injective inRange (by omega) same
    omega
  refine ⟨s', goes, unlocked, ?_, ?_, ?_⟩
  · rw [sessions, AList.entries_insert_of_notMem (AList.lookup_eq_none.mp admits.unmapped),
      List.length_cons, filled.length]
  · intro j later inRange
    have elsewhere : (clientAt j).clientAddr ≠ (clientAt k).clientAddr := fun same =>
      apart j later inRange (congrArg (fun addr : SocketAddr => displayIp addr.ip) same)
    rw [sessions, HashMap.lookup_insert_eq, if_neg elsewhere]
    exact filled.unmapped j (by omega) inRange
  · intro j later inRange
    rw [counts _ (apart j later inRange)]
    exact filled.uncounted j (by omega) inRange

/-- A relay can be filled up to the limit. -/
theorem exists_run_filled {throttle : UdpThrottleConfig} (on : 0 < throttle.maxSessions)
    (kind : Kind) (k : Nat) (most : k ≤ throttle.maxSessions.toNatClampNeg) :
    ∃ events pool, run (Threads.step Task.fresh (Task.advance throttle)) ⟨.new kind, []⟩ events =
      some pool ∧ pool.shared.Filled k := by
  induction k with
  | zero => exact ⟨[], _, rfl, Relay.filled_new kind⟩
  | succ k ih =>
    obtain ⟨events, pool, ran, filled⟩ := ih (Nat.le_of_succ_le most)
    obtain ⟨s', goes, filled'⟩ := filled.succ on most
    -- the datagram of one more client is a task of its own, at the end of the pool
    have started : Threads.step Task.fresh (Task.advance throttle) pool
        (.spawn (.arrived (clientAt k))) =
        some { pool with threads := pool.threads ++ [.arrived (clientAt k)] } :=
      step_spawn_eq_some.mpr ⟨rfl, rfl⟩
    obtain ⟨more, opened⟩ := @run_of_advances _ _ _ Task.fresh (Task.advance throttle)
      { pool with threads := pool.threads ++ [.arrived (clientAt k)] } pool.threads.length _ _
      (List.getElem?_concat_length ..) goes
    have upToStart := run_concat_eq_some.mpr ⟨pool, ran, started⟩
    exact ⟨_, _, run_append_eq_some.mpr ⟨_, upToStart, opened⟩, filled'⟩

/-- A run of one relay is a run of all, in which the others do nothing. -/
theorem Paths.run_relay {s : Paths} {r : Nat} {pool next : Pool Relay Task}
    {events : List (Threads.Event Task Choice)} (at_r : s.relays[r]? = some pool)
    (ran : run (Threads.step Task.fresh (Task.advance s.throttle)) pool events = some next) :
    run Paths.step s (events.map (.relay r)) = some { s with relays := s.relays.set r next } := by
  induction events generalizing s pool with
  | nil =>
    cases ran
    obtain ⟨inRange, rfl⟩ := List.getElem?_eq_some_iff.mp at_r
    rw [List.set_getElem_self]
    rfl
  | cons event events ih =>
    obtain ⟨pool', first, rest⟩ := run_cons_eq_some.mp ran
    have stepped : s.step (.relay r event) = some { s with relays := s.relays.set r pool' } :=
      step_relay_eq_some.mpr ⟨pool, pool', at_r, first, rfl⟩
    have here : (s.relays.set r pool')[r]? = some pool' :=
      List.getElem?_set_self (List.getElem?_eq_some_iff.mp at_r).1
    have later := @ih { s with relays := s.relays.set r pool' } pool' here rest
    rw [List.set_set] at later
    exact run_cons_eq_some.mpr ⟨_, stepped, later⟩

/-- Two relays have room for one session more than the limit. -/
theorem exists_run_above_max {throttle : UdpThrottleConfig} (on : 0 < throttle.maxSessions)
    (one two : Kind) (kinds : List Kind) :
    ∃ events s, (∀ event ∈ events, KeepsMax throttle.maxSessions event) ∧
      run Paths.step (Paths.start throttle (one :: two :: kinds)) events = some s ∧
      throttle.maxSessions.toNatClampNeg < s.liveSessions := by
  have single : 1 ≤ throttle.maxSessions.toNatClampNeg := by
    have positive : (0 : Int) < throttle.maxSessions.toInt := Int32.lt_iff_toInt_lt.mp on
    exact Int.lt_toNat.mpr positive
  obtain ⟨first, full, ranFirst, filled⟩ := exists_run_filled on one _ (Nat.le_refl _)
  obtain ⟨second, other, ranSecond, filled'⟩ := exists_run_filled on two 1 single
  let start := Paths.start throttle (one :: two :: kinds)
  have upToFull := @Paths.run_relay start 0 _ _ _ rfl ranFirst
  have afterFull := @Paths.run_relay ⟨throttle, start.relays.set 0 full⟩ 1 _ _ _ rfl ranSecond
  refine ⟨_, _, ?_, run_append_eq_some.mpr ⟨_, upToFull, afterFull⟩, ?_⟩
  · intro event member
    rcases List.mem_append.mp member with inFirst | inSecond
    · obtain ⟨_, -, rfl⟩ := List.mem_map.mp inFirst
      trivial
    · obtain ⟨_, -, rfl⟩ := List.mem_map.mp inSecond
      trivial
  · simp only [Paths.liveSessions, start, Paths.start, List.map_cons, List.set_cons_zero,
      List.set_cons_succ, List.sum_cons, filled.length, filled'.length]
    omega

/-- Over all interleavings of the datagrams, evictions, disconnects and readers of any number
of paths. -/
theorem liveSessions_within_max_iff_one_path (throttle : UdpThrottleConfig)
    (on : 0 < throttle.maxSessions) (kinds : List Kind) :
    (∀ events, (∀ event ∈ events, KeepsMax throttle.maxSessions event) →
      Always Paths.step (fun s => s.liveSessions ≤ throttle.maxSessions.toNatClampNeg)
        (Paths.start throttle kinds) events) ↔ kinds.length ≤ 1 := by
  constructor
  · intro within
    match kinds with
    | [] => exact Nat.zero_le 1
    | [_] => exact Nat.le_refl 1
    | one :: two :: kinds =>
      obtain ⟨events, s, fixed, ran, above⟩ := exists_run_above_max on one two kinds
      have last := always_iff_prefixes.mp (within events fixed) events [] s
        (List.append_nil events).symm ran
      exact absurd last (Nat.not_le.mpr above)
  · intro one events fixed
    have capped := always_of_guarded
      (fun _ _ _ capped keeps stepped => capped.step on keeps stepped)
      (Paths.capped_start throttle kinds) (guarded_of_forall fixed)
    exact capped.imp fun s capped => capped.liveSessions_le one

/-- Two proxies, at a limit of one session for all. -/
def oneForAll : Paths :=
  .start { maxSessions := 1 }
    [.proxy ⟨.v4 ⟨10, 0, 0, 5⟩, 19132⟩, .proxy ⟨.v4 ⟨10, 0, 0, 6⟩, 19132⟩]

theorem liveSessions_within_max_oneProxy :
    (∀ events, (∀ event ∈ events, KeepsMax 1 event) →
      Always Paths.step (fun s => s.liveSessions ≤ 1)
        (Paths.start { maxSessions := 1 } [.proxy ⟨.v4 ⟨10, 0, 0, 5⟩, 19132⟩]) events) ↔
      [Kind.proxy ⟨.v4 ⟨10, 0, 0, 5⟩, 19132⟩].length ≤ 1 :=
  liveSessions_within_max_iff_one_path { maxSessions := 1 } (by decide) _

def firstPing : Packet :=
  ⟨⟨.v4 ⟨203, 0, 113, 9⟩, 50000⟩, ⟨.v4 ⟨203, 0, 113, 9⟩, 50000⟩, [0x01]⟩

/-- One client sends a datagram to each. -/
theorem liveSessions_above_max_oneForAll :
    ¬ Always Paths.step (fun s => s.liveSessions ≤ 1) oneForAll
      (.relay 0 (.spawn (.arrived firstPing)) ::
        PathEvent.moves 0 0 14 (Relay.Admits.granted firstPing) ++
        .relay 1 (.spawn (.arrived firstPing)) ::
        PathEvent.moves 1 0 14 (Relay.Admits.granted firstPing)) := by
  decide

end MCGate.UdpRelay
