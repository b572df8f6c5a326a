import MCGate.Lib.Threads
import MCGate.Udp.VoiceRelay

/-!
# Logging out of voice chat

A datagram opens a session in many small steps, and only one of them looks at the routing
table. A player who logs out in between closes the sessions there are, and the one that is
inserted afterwards stays. The threads of the pool are calls of `handle_for_client` and
Minecraft connections, one step for each section under a lock.
-/
namespace MCGate.VoiceRelay

open Machine Threads

/-- What the tasks share: the relay, the routing table, the lock that `handle_for_client`
creates sessions under, and the limits. -/
structure Gateway where
  relay : Shared
  routing : VoiceRouting
  createLock : Bool
  throttle : Config.UdpThrottleConfig

/-- A datagram that is handled for a client. -/
structure Packet where
  clientAddr : SocketAddr
  via : SocketAddr
  content : Bytes
  deriving DecidableEq, Repr

def Packet.clientIp (packet : Packet) : Text := displayIp packet.clientAddr.ip

/-- A call of `handle_for_client` or a Minecraft connection, after each of its steps. -/
inductive Task where
  /-- `handle_for_client` is called -/
  | arrived (packet : Packet)
  /-- there is no session yet, and `create_lock` is waited for -/
  | waiting (packet : Packet)
  | locked (packet : Packet)
  | unrouted (packet : Packet)
  | routed (packet : Packet) (route : VoiceRouting.Entry)
  | belowCap (packet : Packet) (route : VoiceRouting.Entry)
  | slotAcquired (packet : Packet) (route : VoiceRouting.Entry)
  | socketOpened (packet : Packet) (route : VoiceRouting.Entry)
  | inserted (packet : Packet) (arc : Nat)
  | indexed (packet : Packet) (arc : Nat)
  /-- the socket could not be opened -/
  | socketFailed (packet : Packet)
  /-- the call returns without a session -/
  | refused
  /-- the session was there at the second look -/
  | foundLocked (packet : Packet) (arc : Nat)
  | found (packet : Packet) (arc : Nat)
  | forwarding (packet : Packet) (arc : Nat)
  | done
  /-- a player has logged in through a route with a voice backend -/
  | login (clientIp host : Text) (backend : SocketAddr)
  | playing (clientIp : Text)
  /-- the last connection of the IP has released its entry, and the hook is to be called -/
  | released (clientIp : Text)
  | closing (rest : List SocketAddr)
  | removed (arc : Nat) (rest : List SocketAddr)
  | unindexed (arc : Nat) (rest : List SocketAddr)
  | killed (arc : Nat) (rest : List SocketAddr)

/-- What the environment decides at a step: the clock, and whether a socket opens. -/
structure Choice where
  now : Instant
  opens : Bool
  deriving DecidableEq, Repr

namespace Task

def fresh : Task → Bool
  | .arrived _ => true
  | .login _ _ _ => true
  | _ => false

def withIndex (s : Gateway) (index : Index) : Gateway :=
  { s with relay := { s.relay with toIndex := index } }

def advance (s : Gateway) (task : Task) (choice : Choice) : Option (Gateway × Task) :=
  match task with
  | .arrived packet =>
    match s.relay.sessions.lookup packet.clientAddr with
    | some existing => some (s, .found packet existing)
    | none => some (s, .waiting packet)
  | .waiting packet =>
    if s.createLock then none else some ({ s with createLock := true }, .locked packet)
  | .locked packet =>
    match s.relay.sessions.lookup packet.clientAddr with
    | some existing => some (s, .foundLocked packet existing)
    | none => some (s, .unrouted packet)
  | .unrouted packet =>
    let (routing, route) := s.routing.resolve choice.now packet.clientIp
    match route with
    | none => some ({ s with routing }, .refused)
    | some route => some ({ s with routing }, .routed packet route)
  | .routed packet route =>
    if s.relay.atCap s.throttle.maxSessions then some (s, .refused)
    else some (s, .belowCap packet route)
  | .belowCap packet route =>
    let (relay, admitted) := s.relay.acquireIpSlot s.throttle.maxSessionsPerIp packet.clientIp
    some ({ s with relay }, if admitted then .slotAcquired packet route else .refused)
  | .slotAcquired packet route =>
    some (s, if choice.opens then .socketOpened packet route else .socketFailed packet)
  | .socketFailed packet =>
    some ({ s with relay := s.relay.releaseIpSlot packet.clientIp }, .refused)
  | .socketOpened packet route =>
    some (withIndex s (s.relay.insertSession packet.clientAddr packet.via route),
      .inserted packet s.relay.opened.length)
  | .inserted packet arc =>
    some (withIndex s (s.relay.insertVia packet.via arc), .indexed packet arc)
  | .indexed packet arc => some ({ s with createLock := false }, .forwarding packet arc)
  | .refused => some ({ s with createLock := false }, .done)
  | .foundLocked packet arc => some ({ s with createLock := false }, .found packet arc)
  | .found packet arc =>
    some (withIndex s (s.relay.repointVia arc packet.via), .forwarding packet arc)
  | .forwarding packet arc => some ({ s with relay := s.relay.forward arc packet.content }, .done)
  | .done => none
  | .login clientIp host backend =>
    some ({ s with routing := s.routing.register choice.now clientIp host backend },
      .playing clientIp)
  | .playing clientIp =>
    let (routing, hook) := s.routing.unregister clientIp
    some ({ s with routing }, if hook then .released clientIp else .done)
  | .released clientIp =>
    some (s, .closing (s.relay.sessions.keys.filter fun addr => displayIp addr.ip = clientIp))
  | .closing [] => some (s, .done)
  | .closing (addr :: rest) =>
    match s.relay.sessions.lookup addr with
    | none => some (s, .closing rest)
    | some arc => some (withIndex s (s.relay.removeSession addr), .removed arc rest)
  | .removed arc rest => some (withIndex s (s.relay.unindex arc), .unindexed arc rest)
  | .unindexed arc rest => some (withIndex s (s.relay.markDead arc), .killed arc rest)
  | .killed arc rest =>
    match s.relay.opened[arc]? with
    | none => some (s, .closing rest)
    | some session =>
      some ({ s with relay := s.relay.releaseIpSlot session.clientIp }, .closing rest)

/-- The IP of a connection that is registered and live. -/
def player : Task → Option Text
  | .playing clientIp => some clientIp
  | _ => none

/-- The task is not in the middle of an operation. -/
def atRest : Task → Bool
  | .arrived _ => true
  | .login _ _ _ => true
  | .playing _ => true
  | .done => true
  | _ => false

/-- When no operation is in progress, every session that is not dead is in the map. -/
def SessionsListed (pool : Pool Gateway Task) : Prop :=
  (∀ task ∈ pool.threads, task.atRest) →
    ∀ arc, (pool.shared.relay.openVia arc).isSome →
      ∃ addr, pool.shared.relay.sessions.lookup addr = some arc

/-- When no operation is in progress, the client of every session has a live connection. -/
def SessionsLive (pool : Pool Gateway Task) : Prop :=
  (∀ task ∈ pool.threads, task.atRest) →
    ∀ addr arc, pool.shared.relay.sessions.lookup addr = some arc →
      displayIp addr.ip ∈ pool.threads.filterMap player

/-! ### A datagram alone -/

/-- Without a session for the client, the task gets the creation lock and looks a second time. -/
theorem run_arrived_unknown {s : Gateway} {packet : Packet}
    (unknown : s.relay.sessions.lookup packet.clientAddr = none)
    (unlocked : s.createLock = false) (choice : Choice) (n : Nat) :
    run (Threads.step fresh advance) ⟨s, [.arrived packet]⟩
        (List.replicate (n + 3) (.move 0 choice)) =
      run (Threads.step fresh advance) ⟨{ s with createLock := true }, [.unrouted packet]⟩
        (List.replicate n (.move 0 choice)) := by
  have look : advance s (.arrived packet) choice = some (s, .waiting packet) := by
    simp only [advance, unknown]
  have lock : advance s (.waiting packet) choice =
      some ({ s with createLock := true }, .locked packet) := by
    simp [advance, unlocked]
  have lookAgain : advance { s with createLock := true } (.locked packet) choice =
      some ({ s with createLock := true }, .unrouted packet) := by
    simp only [advance, unknown]
  rw [run_alone_succ look, run_alone_succ lock, run_alone_succ lookAgain]

/-- A call of `handle_for_client` that nothing comes between does what `handleForClient` says. -/
theorem run_arrived_alone (s : Gateway) (packet : Packet) (choice : Choice)
    (unlocked : s.createLock = false) :
    ∃ n s',
      run (Threads.step fresh advance) ⟨s, [.arrived packet]⟩
          (List.replicate n (.move 0 choice)) = some ⟨s', [.done]⟩ ∧
      s'.relay = s.relay.handleForClient packet.clientAddr packet.via packet.content
        ⟨s.throttle, (s.routing.resolve choice.now packet.clientIp).2, choice.opens⟩ := by
  -- one case for each way through the function, with the number of its steps
  cases known : s.relay.sessions.lookup packet.clientAddr with
  | some arc =>
    have look : advance s (.arrived packet) choice = some (s, .found packet arc) := by
      simp only [advance, known]
    refine ⟨3, _, (run_alone_succ look 2).trans rfl, ?_⟩
    simp only [Shared.handleForClient, known]
    rfl
  | none =>
    have upToRoute := run_arrived_unknown known unlocked choice
    simp only [Shared.handleForClient, known]
    let routed : Gateway :=
      { s with createLock := true, routing := (s.routing.resolve choice.now packet.clientIp).1 }
    cases route : (s.routing.resolve choice.now packet.clientIp).2 with
    | none =>
      have noRoute : advance { s with createLock := true } (.unrouted packet) choice =
          some (routed, .refused) := by
        simp only [advance, route, routed]
      exact ⟨5, _, ((upToRoute 2).trans (run_alone_succ noRoute 1)).trans rfl, rfl⟩
    | some target =>
      have found : advance { s with createLock := true } (.unrouted packet) choice =
          some (routed, .routed packet target) := by
        simp only [advance, route, routed]
      by_cases full : s.relay.atCap s.throttle.maxSessions
      · have atCap : advance routed (.routed packet target) choice = some (routed, .refused) := by
          simp only [advance, routed, full, if_true]
        refine ⟨6, _, ((upToRoute 3).trans ((run_alone_succ found 2).trans
          (run_alone_succ atCap 1))).trans rfl, ?_⟩
        simp only [full, if_true]
        rfl
      · have below : advance routed (.routed packet target) choice =
            some (routed, .belowCap packet target) := by
          simp only [advance, routed, full, Bool.false_eq_true, if_false]
        have upToSlot (n : Nat) :
            run (Threads.step fresh advance) ⟨s, [.arrived packet]⟩
                (List.replicate (n + 5) (.move 0 choice)) =
              run (Threads.step fresh advance) ⟨routed, [.belowCap packet target]⟩
                (List.replicate n (.move 0 choice)) := by
          rw [upToRoute, run_alone_succ found, run_alone_succ below]
        simp only [full, Bool.false_eq_true, if_false]
        rw [show displayIp packet.clientAddr.ip = packet.clientIp from rfl]
        generalize slot : s.relay.acquireIpSlot s.throttle.maxSessionsPerIp packet.clientIp = result
        obtain ⟨relay, admitted⟩ := result
        have acquire : advance routed (.belowCap packet target) choice =
            some ({ routed with relay },
              if admitted then .slotAcquired packet target else .refused) := by
          simp only [advance, routed, slot]
        cases admitted with
        | false =>
          exact ⟨7, _, ((upToSlot 2).trans (run_alone_succ acquire 1)).trans rfl, rfl⟩
        | true =>
          cases opens : choice.opens with
          | false =>
            have fails : advance { routed with relay } (.slotAcquired packet target) choice =
                some ({ routed with relay }, .socketFailed packet) := by
              simp [advance, opens]
            exact ⟨9, _, ((upToSlot 4).trans ((run_alone_succ acquire 3).trans
              (run_alone_succ fails 2))).trans rfl, rfl⟩
          | true =>
            have opened : advance { routed with relay } (.slotAcquired packet target) choice =
                some ({ routed with relay }, .socketOpened packet target) := by
              simp [advance, opens]
            exact ⟨11, _, ((upToSlot 6).trans ((run_alone_succ acquire 5).trans
              (run_alone_succ opened 4))).trans rfl, rfl⟩

/-! ### What a step does -/

/-- The task will see to it that the session of `addr` is closed, or keeps it legitimate. -/
def covers (addr : SocketAddr) : Task → Prop
  | .playing clientIp => displayIp addr.ip = clientIp
  | .released clientIp => displayIp addr.ip = clientIp
  | .closing rest => addr ∈ rest
  | .removed _ rest => addr ∈ rest
  | .unindexed _ rest => addr ∈ rest
  | .killed _ rest => addr ∈ rest
  | _ => False

inductive Effect (s : Gateway) (task : Task) : Gateway → Task → Prop
  /-- no session is added, and the task covers those that it did -/
  | quiet {s' : Gateway} {task' : Task}
      (refs : ∀ ip, (s'.routing.get ip).map VoiceRouting.Entry.refs =
        (s.routing.get ip).map VoiceRouting.Entry.refs)
      (same : task'.player = task.player)
      (old : ∀ addr, s'.relay.sessions.lookup addr = s.relay.sessions.lookup addr ∨
        s'.relay.sessions.lookup addr = none)
      (kept : ∀ addr, (s'.relay.sessions.lookup addr).isSome → task.covers addr →
        task'.covers addr) :
      Effect s task s' task'
  | inserts (packet : Packet) (route : VoiceRouting.Entry)
      (opened : task = .socketOpened packet route) :
      Effect s task (withIndex s (s.relay.insertSession packet.clientAddr packet.via route))
        (.inserted packet s.relay.opened.length)
  | logsIn (now : Instant) (clientIp host : Text) (backend : SocketAddr)
      (arrived : task = .login clientIp host backend) :
      Effect s task { s with routing := s.routing.register now clientIp host backend }
        (.playing clientIp)
  | logsOut (clientIp : Text) (live : task = .playing clientIp) :
      Effect s task { s with routing := (s.routing.unregister clientIp).1 }
        (if (s.routing.unregister clientIp).2 then .released clientIp else .done)

variable {s s' : Gateway} {task task' : Task} {choice : Choice}

/-- A step that leaves the sessions and the routing table alone. -/
theorem Effect.still (routing : s'.routing = s.routing)
    (sessions : s'.relay.sessions = s.relay.sessions) (same : task'.player = task.player)
    (kept : ∀ addr, (s.relay.sessions.lookup addr).isSome → task.covers addr →
      task'.covers addr) :
    Effect s task s' task' := by
  apply Effect.quiet
  · rw [routing]
    exact fun ip => rfl
  · exact same
  · rw [sessions]
    exact fun addr => .inl rfl
  · rw [sessions]
    exact kept

/-- The hook takes the next address off its list, with the session if there is one. -/
theorem effect_closing {first : SocketAddr} {rest : List SocketAddr}
    (moved : advance s (.closing (first :: rest)) choice = some (s', task')) :
    Effect s (.closing (first :: rest)) s' task' := by
  simp only [advance] at moved
  split at moved
  -- another logout of the IP has taken the session since the addresses were listed
  next absent =>
    cases moved
    refine .still rfl rfl rfl fun addr stored own => ?_
    rcases List.mem_cons.mp own with rfl | later
    · rw [absent] at stored
      cases stored
    · exact later
  next arc present =>
    cases moved
    -- the address is off the list, but so is its session off the map
    have erased (addr : SocketAddr) := HashMap.lookup_erase_eq s.relay.sessions first addr
    refine .quiet (fun _ => rfl) rfl (fun addr => ?_) fun addr stored own => ?_
    · refine Or.symm ?_
      refine (em (addr = first)).imp (fun same => ?_) fun other => ?_
      · exact (erased addr).trans (if_pos same)
      · exact (erased addr).trans (if_neg other)
    · rcases List.mem_cons.mp own with rfl | later
      · have gone : (s.relay.removeSession addr).sessions.lookup addr = none :=
          (erased addr).trans (if_pos rfl)
        rw [withIndex, gone] at stored
        cases stored
      · exact later

theorem advance_effect (moved : advance s task choice = some (s', task')) :
    Effect s task s' task' := by
  cases task with
  | arrived packet =>
    simp only [advance] at moved
    split at moved <;> cases moved <;> exact .still rfl rfl rfl fun _ _ => id
  | waiting packet =>
    simp only [advance] at moved
    split at moved <;> cases moved
    exact .still rfl rfl rfl fun _ _ => id
  | locked packet =>
    simp only [advance] at moved
    split at moved <;> cases moved <;> exact .still rfl rfl rfl fun _ _ => id
  | unrouted packet =>
    simp only [advance] at moved
    split at moved <;> cases moved <;>
      exact .quiet (VoiceRouting.refs_resolve _ _ _) rfl (fun _ => .inl rfl) fun _ _ => id
  | routed packet route =>
    simp only [advance] at moved
    split at moved <;> cases moved <;> exact .still rfl rfl rfl fun _ _ => id
  | belowCap packet route =>
    cases moved
    have index := Shared.acquireIpSlot_toIndex s.relay s.throttle.maxSessionsPerIp packet.clientIp
    refine .still rfl (congrArg Index.sessions index) ?_ fun _ _ => ?_
    · split <;> rfl
    · exact False.elim
  | slotAcquired packet route =>
    cases moved
    refine .still rfl rfl ?_ fun _ _ => ?_
    · split <;> rfl
    · exact False.elim
  | socketFailed packet =>
    cases moved
    have index := Shared.releaseIpSlot_toIndex s.relay packet.clientIp
    exact .still rfl (congrArg Index.sessions index) rfl fun _ _ => id
  | socketOpened packet route =>
    cases moved
    exact .inserts packet route rfl
  | inserted packet arc =>
    cases moved
    exact .still rfl (Index.insertVia_frame _ _ _).1 rfl fun _ _ => id
  | indexed packet arc =>
    cases moved
    exact .still rfl rfl rfl fun _ _ => id
  | refused =>
    cases moved
    exact .still rfl rfl rfl fun _ _ => id
  | foundLocked packet arc =>
    cases moved
    exact .still rfl rfl rfl fun _ _ => id
  | found packet arc =>
    cases moved
    exact .still rfl (Index.repointVia_frame _ _ _).1 rfl fun _ _ => id
  | forwarding packet arc =>
    cases moved
    have index := Shared.forward_toIndex s.relay arc packet.content
    exact .still rfl (congrArg Index.sessions index) rfl fun _ _ => id
  | done => cases moved
  | login clientIp host backend =>
    cases moved
    exact .logsIn choice.now clientIp host backend rfl
  | playing clientIp =>
    cases moved
    exact .logsOut clientIp rfl
  | released clientIp =>
    cases moved
    refine .still rfl rfl rfl fun addr stored own => ?_
    -- the hook lists the addresses that are in the map at this moment
    have key : addr ∈ s.relay.sessions.keys := AList.mem_keys.mp (AList.lookup_isSome.mp stored)
    exact List.mem_filter.mpr ⟨key, decide_eq_true own⟩
  | closing rest =>
    cases rest with
    | nil =>
      cases moved
      refine .still rfl rfl rfl fun addr _ own => ?_
      cases own
    | cons first rest => exact effect_closing moved
  | removed arc rest =>
    cases moved
    exact .still rfl rfl rfl fun _ _ => id
  | unindexed arc rest =>
    cases moved
    exact .still rfl (Index.markDead_frame _ _).1 rfl fun _ _ => id
  | killed arc rest =>
    simp only [advance] at moved
    split at moved <;> cases moved
    · exact .still rfl rfl rfl fun _ _ => id
    · have index := Shared.releaseIpSlot_toIndex s.relay
      exact .still rfl (congrArg Index.sessions (index _)) rfl fun _ _ => id

/-! ### Counted connections -/

/-- The routing table counts the connections of each IP. -/
def Counts (routing : VoiceRouting) (live : List Text) : Prop :=
  VoiceHolds.Accounts ⟨routing, live, []⟩

variable {routing routing' : VoiceRouting} {live live' : List Text} {clientIp : Text}

theorem Counts.congr (counts : Counts routing live)
    (refs : ∀ ip, (routing'.get ip).map VoiceRouting.Entry.refs =
      (routing.get ip).map VoiceRouting.Entry.refs)
    (same : live.Perm live') : Counts routing' live' := by
  refine ⟨fun ip => ?_, fun call member => by cases member⟩
  have number := congrArg (Option.map UInt32.toNat) (refs ip)
  simp only [Option.map_map] at number
  exact (number.trans (counts.1 ip)).trans (VoiceHolds.held_congr (same.count_eq ip))

theorem Counts.register (counts : Counts routing live) (now : Instant) (host : Text)
    (backend : SocketAddr) (room : live.count clientIp + 1 < 2 ^ 32) :
    Counts (routing.register now clientIp host backend) (clientIp :: live) :=
  (VoiceHolds.accounts_register counts rfl).mpr room

theorem Counts.unregister (counts : Counts routing live) (member : clientIp ∈ live) :
    Counts (routing.unregister clientIp).1 (live.erase clientIp) := by
  have after := VoiceHolds.accounts_unregister counts (if_pos member)
  exact ⟨after.1, fun call member => by cases member⟩

/-- The hook is left out only while another connection of the IP is live. -/
theorem Counts.shared (counts : Counts routing live) (member : clientIp ∈ live)
    (noHook : (routing.unregister clientIp).2 = false) : clientIp ∈ live.erase clientIp := by
  obtain ⟨entry, stored, refs⟩ :=
    Option.map_eq_some_iff.mp ((counts.1 clientIp).trans (VoiceHolds.held_of_mem member))
  have stored' : routing.get clientIp = some entry := stored
  -- the hook runs when the last reference goes, so another one is left
  have more : 1 < entry.refs := by
    by_contra last
    simp [VoiceRouting.unregister, stored', last] at noHook
  rw [← List.count_pos_iff, List.count_erase_self, ← refs]
  have two := UInt32.lt_iff_toNat_lt.mp more
  exact Nat.sub_pos_of_lt two

/-! ### Whole runs -/

/-- The connection of `clientIp` is live, or its logout has yet to look for sessions. -/
def holdsIp (clientIp : Text) : Task → Bool
  | .playing ip => ip = clientIp
  | .released ip => ip = clientIp
  | _ => false

/-- The next step of the task comes in time: a session is inserted while a connection of its
client's IP is live or has yet to look for the sessions it closes, and a login does not bring
an IP to `2 ^ 32` connections. -/
def inTime (tasks : List Task) : Task → Bool
  | .socketOpened packet _ => tasks.any (holdsIp packet.clientIp)
  | .login clientIp _ _ => (tasks.filterMap player).count clientIp + 1 < 2 ^ 32
  | _ => true

def InsertsInTime (pool : Pool Gateway Task) : Event Task Choice → Prop
  | .spawn _ => True
  | .move i _ => ∀ task ∈ pool.threads[i]?, task.inTime pool.threads

instance (pool : Pool Gateway Task) (event : Event Task Choice) :
    Decidable (InsertsInTime pool event) :=
  match event with
  | .spawn _ => isTrue trivial
  | .move i _ =>
    inferInstanceAs (Decidable (∀ task ∈ pool.threads[i]?, task.inTime pool.threads))

structure Legitimate (pool : Pool Gateway Task) : Prop where
  counted : Counts pool.shared.routing (pool.threads.filterMap player)
  covered : ∀ addr, (pool.shared.relay.sessions.lookup addr).isSome →
    ∃ task ∈ pool.threads, task.covers addr

private theorem covers_of_holdsIp {addr : SocketAddr} (holds : task.holdsIp (displayIp addr.ip)) :
    task.covers addr := by
  cases task with
  | playing ip => exact (of_decide_eq_true holds).symm
  | released ip => exact (of_decide_eq_true holds).symm
  | _ => cases holds

section Move

variable {threads : List Task} {i : Nat}

/-- A session that was covered before a move is covered after it, unless it was the moving
task's and is not any more. -/
theorem covered_set {addr : SocketAddr} (at_i : threads[i]? = some task)
    (covered : ∃ other ∈ threads, other.covers addr)
    (kept : task.covers addr → ∃ other ∈ threads.set i task', other.covers addr) :
    ∃ other ∈ threads.set i task', other.covers addr := by
  obtain ⟨other, member, covers⟩ := covered
  by_cases same : other = task
  · exact kept (same ▸ covers)
  · exact ⟨other, mem_set_of_ne at_i member same, covers⟩

/-- A logout leaves the sessions to the hook, or to another connection of the IP. -/
theorem legitimate_logsOut {clientIp : Text} (at_i : threads[i]? = some (.playing clientIp))
    (legitimate : Legitimate ⟨s, threads⟩) :
    Legitimate ⟨{ s with routing := (s.routing.unregister clientIp).1 },
      threads.set i (if (s.routing.unregister clientIp).2 then .released clientIp else .done)⟩ := by
  obtain ⟨counted, covered⟩ := legitimate
  obtain ⟨inRange, -⟩ := List.getElem?_eq_some_iff.mp at_i
  have here := List.mem_set inRange
    (if (s.routing.unregister clientIp).2 then Task.released clientIp else .done)
  have before : (playing clientIp).player = some clientIp := rfl
  have after : (if (s.routing.unregister clientIp).2 then Task.released clientIp
      else .done).player = none := by
    split <;> rfl
  have others := filterMap_set_of_gone at_i before after
  have member : clientIp ∈ threads.filterMap player := others.symm.subset List.mem_cons_self
  have left : ((threads.filterMap player).erase clientIp).Perm ((threads.set i
      (if (s.routing.unregister clientIp).2 then Task.released clientIp else .done)).filterMap
        player) := by
    have erased := others.erase clientIp
    rwa [List.erase_cons_head] at erased
  refine ⟨?_, fun addr stored => ?_⟩
  · exact (counted.unregister member).congr (fun ip => rfl) left
  · refine covered_set at_i (covered addr stored) fun own => ?_
    cases hook : (s.routing.unregister clientIp).2 with
    -- the hook has yet to list the sessions, this one among them
    | true =>
      rw [hook] at here
      exact ⟨_, here, own⟩
    | false =>
      -- the IP has another connection
      have another := left.subset (counted.shared member hook)
      obtain ⟨other, there, plays⟩ := List.mem_filterMap.mp another
      rw [hook] at there
      refine ⟨other, there, ?_⟩
      cases other with
      | playing ip =>
        cases plays
        exact own
      | _ => cases plays

private theorem Effect.legitimate (effect : Effect s task s' task') (at_i : threads[i]? = some task)
    (legitimate : Legitimate ⟨s, threads⟩)
    (inTime : InsertsInTime ⟨s, threads⟩ (.move i choice)) :
    Legitimate ⟨s', threads.set i task'⟩ := by
  obtain ⟨counted, covered⟩ := legitimate
  obtain ⟨inRange, -⟩ := List.getElem?_eq_some_iff.mp at_i
  have here : task' ∈ threads.set i task' := List.mem_set inRange task'
  have now : task.inTime threads := inTime task at_i
  cases effect with
  | quiet refs same old kept =>
    refine ⟨?_, fun addr stored => ?_⟩
    · apply counted.congr refs
      rw [filterMap_set_of_eq at_i same]
    · have before : (s.relay.sessions.lookup addr).isSome := by
        rcases old addr with unchanged | gone
        · rwa [← unchanged]
        · rw [gone] at stored
          cases stored
      apply covered_set at_i (covered addr before)
      exact fun covers => ⟨task', here, kept addr stored covers⟩
  | inserts packet route opened =>
    subst opened
    refine ⟨?_, fun addr stored => ?_⟩
    · have same : (inserted packet s.relay.opened.length).player =
          (socketOpened packet route).player := rfl
      apply counted.congr fun ip => rfl
      rw [filterMap_set_of_eq at_i same]
    · -- the new session is covered because it comes in time, the others still are
      by_cases new : addr = packet.clientAddr
      · subst new
        obtain ⟨other, member, holds⟩ := List.any_eq_true.mp now
        exact covered_set at_i ⟨other, member, covers_of_holdsIp holds⟩ False.elim
      · have before : (s.relay.sessions.lookup addr).isSome := by
          have inserted := HashMap.lookup_insert_eq s.relay.sessions packet.clientAddr addr
            s.relay.opened.length
          rw [if_neg new] at inserted
          rw [← inserted]
          exact stored
        exact covered_set at_i (covered addr before) False.elim
  | logsIn instant clientIp host backend arrived =>
    subst arrived
    refine ⟨?_, fun addr stored => ?_⟩
    · have before : (login clientIp host backend).player = none := rfl
      have after : (playing clientIp).player = some clientIp := rfl
      have room := of_decide_eq_true now
      refine (counted.register instant host backend room).congr (fun ip => rfl) ?_
      exact (filterMap_set_of_new at_i before after).symm
    · exact covered_set at_i (covered addr stored) False.elim
  | logsOut clientIp live =>
    subst live
    exact legitimate_logsOut at_i ⟨counted, covered⟩

end Move

private theorem step_legitimate {pool next : Pool Gateway Task} {event : Event Task Choice}
    (legitimate : Legitimate pool) (inTime : InsertsInTime pool event)
    (stepped : Threads.step fresh advance pool event = some next) : Legitimate next := by
  cases event with
  | spawn task =>
    obtain ⟨starts, rfl⟩ := step_spawn_eq_some.mp stepped
    have no_player : task.player = none := by
      cases task <;> first | rfl | cases starts
    refine ⟨?_, fun addr stored => ?_⟩
    · apply legitimate.counted.congr fun ip => rfl
      rw [List.filterMap_append, List.filterMap_cons_none no_player, List.filterMap_nil,
        List.append_nil]
    · obtain ⟨other, member, covers⟩ := legitimate.covered addr stored
      exact ⟨other, List.mem_append_left _ member, covers⟩
  | move i choice =>
    obtain ⟨task, s', task', at_i, moved, rfl⟩ := step_move_eq_some.mp stepped
    exact (advance_effect moved).legitimate at_i legitimate inTime

private theorem Legitimate.sessionsLive {pool : Pool Gateway Task} (legitimate : Legitimate pool) :
    SessionsLive pool := by
  intro atRest addr arc stored
  obtain ⟨task, member, covers⟩ := legitimate.covered addr (by rw [stored]; rfl)
  have rests := atRest task member
  cases task with
  | playing clientIp =>
    refine List.mem_filterMap.mpr ⟨_, member, ?_⟩
    exact congrArg some covers.symm
  | released clientIp => cases rests
  | closing rest => cases rests
  | removed arc rest => cases rests
  | unindexed arc rest => cases rests
  | killed arc rest => cases rests
  | _ => cases covers

/-! ### No session is out of reach -/

/-- The task holds `create_lock`. -/
def holdsLock : Task → Bool
  | .locked _ | .unrouted _ | .routed _ _ | .belowCap _ _ | .slotAcquired _ _ | .socketOpened _ _
  | .socketFailed _ | .inserted _ _ | .indexed _ _ | .refused | .foundLocked _ _ => true
  | _ => false

/-- The address that the task has found without a session, under the lock. -/
def vacant : Task → Option SocketAddr
  | .unrouted packet | .routed packet _ | .belowCap packet _ | .slotAcquired packet _
  | .socketOpened packet _ => some packet.clientAddr
  | _ => none

/-- The session that the task has removed and not killed yet. -/
def closes : Task → Option Nat
  | .removed arc _ | .unindexed arc _ => some arc
  | _ => none

theorem holdsLock_of_vacant {addr : SocketAddr} (vacant : task.vacant = some addr) :
    task.holdsLock := by
  cases task <;> first | rfl | cases vacant

theorem not_holdsLock_of_fresh (ready : task.fresh) :
    task.holdsLock = false ∧ task.closes = none := by
  cases task <;> first | exact ⟨rfl, rfl⟩ | cases ready

/-- What a step does to the sessions that are open. -/
inductive Places (s : Gateway) (task : Task) : Gateway → Task → Prop
  | quiet {s' : Gateway} {task' : Task}
      (locking : Locking holdsLock s.createLock task s'.createLock task')
      (sessions : s'.relay.sessions = s.relay.sessions)
      (opened : ∀ arc, (s'.relay.openVia arc).isSome → (s.relay.openVia arc).isSome)
      (closes : task'.closes = task.closes)
      (vacant : ∀ addr, task'.vacant = some addr →
        task.vacant = some addr ∨ s.relay.sessions.lookup addr = none) :
      Places s task s' task'
  | opens (packet : Packet) (route : VoiceRouting.Entry)
      (opened : task = .socketOpened packet route) :
      Places s task (withIndex s (s.relay.insertSession packet.clientAddr packet.via route))
        (.inserted packet s.relay.opened.length)
  | removes (addr : SocketAddr) (arc : Nat) (rest : List SocketAddr)
      (closing : task = .closing (addr :: rest))
      (found : s.relay.sessions.lookup addr = some arc) :
      Places s task (withIndex s (s.relay.removeSession addr)) (.removed arc rest)
  | kills (arc : Nat) (rest : List SocketAddr) (removed : task = .unindexed arc rest) :
      Places s task (withIndex s (s.relay.markDead arc)) (.killed arc rest)

/-- A step that leaves the relay's indexes alone. -/
theorem Places.still (locking : Locking holdsLock s.createLock task s'.createLock task')
    (index : s'.relay.toIndex = s.relay.toIndex) (closes : task'.closes = task.closes)
    (vacant : ∀ addr, task'.vacant = some addr →
      task.vacant = some addr ∨ s.relay.sessions.lookup addr = none) :
    Places s task s' task' := by
  refine .quiet locking (congrArg Index.sessions index) (fun arc => ?_) closes vacant
  rw [index]
  exact id

private theorem isSome_openVia_insertVia (index : Index) (via : SocketAddr) (arc other : Nat) :
    ((index.insertVia via arc).openVia other).isSome = (index.openVia other).isSome := by
  rw [Index.openVia, (Index.insertVia_frame _ _ _).2.2, Index.openVia]

private theorem isSome_openVia_repointVia (index : Index) (arc : Nat) (via : SocketAddr)
    (other : Nat) (opened : ((index.repointVia arc via).openVia other).isSome) :
    (index.openVia other).isSome := by
  unfold Index.repointVia at opened
  cases at_arc : index.opened[arc]? with
  | none =>
    rw [at_arc] at opened
    exact opened
  | some session =>
    -- whether the session is moved or not, it is as dead as before
    have moved (moved : Index) (set : moved.opened = index.opened.set arc { session with via })
        (alive : (moved.openVia other).isSome) : (index.openVia other).isSome := by
      unfold Index.openVia at alive ⊢
      rw [set] at alive
      by_cases own : arc = other
      · subst own
        rw [List.getElem?_set_self (List.getElem?_eq_some_iff.mp at_arc).1] at alive
        rw [at_arc]
        simp only [Option.bind_some] at alive ⊢
        split at alive <;> split <;> simp_all
      · rwa [List.getElem?_set_ne own] at alive
    rw [at_arc] at opened
    dsimp only at opened
    split at opened
    · exact moved _ rfl opened
    · split at opened
      · exact opened
      · exact moved _ rfl opened

private theorem places_of_advance (moved : advance s task choice = some (s', task')) :
    Places s task s' task' := by
  -- most tasks go on without having found an address vacant
  have none_vacant {t : Task} (none : t.vacant = none) (addr : SocketAddr)
      (some_ : t.vacant = some addr) :
      task.vacant = some addr ∨ s.relay.sessions.lookup addr = Option.none := by
    rw [none] at some_
    cases some_
  cases task with
  | arrived packet =>
    simp only [advance] at moved
    split at moved <;> cases moved <;> exact .still (.keeps rfl) rfl rfl (none_vacant rfl)
  | waiting packet =>
    simp only [advance] at moved
    split at moved
    · cases moved
    next free =>
      cases moved
      exact .still (.takes rfl rfl (Bool.eq_false_iff.mpr free)) rfl rfl (none_vacant rfl)
  | locked packet =>
    simp only [advance] at moved
    split at moved
    · cases moved
      exact .still (.keeps rfl) rfl rfl (none_vacant rfl)
    next unmapped =>
      cases moved
      refine .still (.keeps rfl) rfl rfl ?_
      rintro _ ⟨⟩
      exact .inr unmapped
  | unrouted packet =>
    simp only [advance] at moved
    split at moved <;> cases moved
    · exact .still (.keeps rfl) rfl rfl (none_vacant rfl)
    · exact .still (.keeps rfl) rfl rfl fun _ => .inl
  | routed packet route =>
    simp only [advance] at moved
    split at moved <;> cases moved
    · exact .still (.keeps rfl) rfl rfl (none_vacant rfl)
    · exact .still (.keeps rfl) rfl rfl fun _ => .inl
  | belowCap packet route =>
    cases moved
    have index := Shared.acquireIpSlot_toIndex s.relay s.throttle.maxSessionsPerIp packet.clientIp
    split
    · exact .still (.keeps rfl) index rfl fun _ => .inl
    · exact .still (.keeps rfl) index rfl (none_vacant rfl)
  | slotAcquired packet route =>
    cases moved
    split
    · exact .still (.keeps rfl) rfl rfl fun _ => .inl
    · exact .still (.keeps rfl) rfl rfl (none_vacant rfl)
  | socketFailed packet =>
    cases moved
    exact .still (.keeps rfl) (Shared.releaseIpSlot_toIndex s.relay _) rfl (none_vacant rfl)
  | socketOpened packet route =>
    cases moved
    exact .opens packet route rfl
  | inserted packet arc =>
    cases moved
    refine .quiet (.keeps rfl) (Index.insertVia_frame _ _ _).1 (fun other => ?_) rfl
      (none_vacant rfl)
    exact (isSome_openVia_insertVia s.relay.toIndex packet.via arc other ▸ id)
  | indexed packet arc | refused | foundLocked packet arc =>
    cases moved
    exact .still (.gives rfl rfl) rfl rfl (none_vacant rfl)
  | found packet arc =>
    cases moved
    refine .quiet (.keeps rfl) (Index.repointVia_frame _ _ _).1 (fun other => ?_) rfl
      (none_vacant rfl)
    exact isSome_openVia_repointVia s.relay.toIndex arc packet.via other
  | forwarding packet arc =>
    cases moved
    exact .still (.keeps rfl) (Shared.forward_toIndex s.relay arc packet.content) rfl
      (none_vacant rfl)
  | done => cases moved
  | login clientIp host backend =>
    cases moved
    exact .still (.keeps rfl) rfl rfl (none_vacant rfl)
  | playing clientIp =>
    simp only [advance, Option.some.injEq, Prod.mk.injEq] at moved
    obtain ⟨rfl, rfl⟩ := moved
    cases (s.routing.unregister clientIp).2 <;>
      exact .still (.keeps rfl) rfl rfl (none_vacant rfl)
  | released clientIp =>
    cases moved
    exact .still (.keeps rfl) rfl rfl (none_vacant rfl)
  | closing addrs =>
    cases addrs with
    | nil =>
      cases moved
      exact .still (.keeps rfl) rfl rfl (none_vacant rfl)
    | cons addr rest =>
      simp only [advance] at moved
      split at moved
      · cases moved
        exact .still (.keeps rfl) rfl rfl (none_vacant rfl)
      next arc found =>
        cases moved
        exact .removes addr arc rest rfl found
  | removed arc rest =>
    cases moved
    exact .quiet (.keeps rfl) rfl (fun _ => id) rfl (none_vacant rfl)
  | unindexed arc rest =>
    cases moved
    exact .kills arc rest rfl
  | killed arc rest =>
    simp only [advance] at moved
    split at moved <;> cases moved
    · exact .still (.keeps rfl) rfl rfl (none_vacant rfl)
    · exact .still (.keeps rfl) (Shared.releaseIpSlot_toIndex s.relay _) rfl (none_vacant rfl)

/-- Every session that is open is in the map, or a task that has removed it will kill it. The
lock keeps a session from another one's place. -/
structure Reached (s : Gateway) (tasks : Multiset Task) : Prop where
  holders : OneHolder holdsLock s.createLock tasks
  vacant : ∀ task ∈ tasks, ∀ addr, task.vacant = some addr →
    s.relay.sessions.lookup addr = none
  listed : ∀ arc, (s.relay.openVia arc).isSome →
    (∃ addr, s.relay.sessions.lookup addr = some arc) ∨ ∃ task ∈ tasks, task.closes = some arc

variable {tasks others : Multiset Task}

theorem Reached.spawn (reached : Reached s tasks) (ready : task.fresh) :
    Reached s (task ::ₘ tasks) := by
  obtain ⟨free, -⟩ := not_holdsLock_of_fresh ready
  refine ⟨reached.holders.spawn free, fun other member addr vacant => ?_, fun arc opened => ?_⟩
  · rcases Multiset.mem_cons.mp member with rfl | old
    · rw [holdsLock_of_vacant vacant] at free
      cases free
    · exact reached.vacant other old addr vacant
  · refine (reached.listed arc opened).imp_right ?_
    rintro ⟨other, member, closes⟩
    exact ⟨other, Multiset.mem_cons_of_mem member, closes⟩

/-- What the other tasks close they still close. -/
theorem closes_cons (task' : Task) {arc : Nat}
    (closes : ∃ other ∈ task ::ₘ others, other.closes = some arc)
    (own : task.closes = some arc → task'.closes = some arc) :
    ∃ other ∈ task' ::ₘ others, other.closes = some arc := by
  obtain ⟨other, member, mine⟩ := closes
  rcases Multiset.mem_cons.mp member with rfl | old
  · exact ⟨task', Multiset.mem_cons_self _ _, own mine⟩
  · exact ⟨other, Multiset.mem_cons_of_mem old, mine⟩

theorem Places.reached (places : Places s task s' task')
    (reached : Reached s (task ::ₘ others)) : Reached s' (task' ::ₘ others) := by
  have mine (addr : SocketAddr) := reached.vacant task (Multiset.mem_cons_self _ _) addr
  have theirs (other : Task) (member : other ∈ others) (addr : SocketAddr) :=
    reached.vacant other (Multiset.mem_cons_of_mem member) addr
  cases places with
  | quiet locking sessions opened closes vacant =>
    refine ⟨reached.holders.move locking, ?_, fun arc alive => ?_⟩
    · rw [sessions]
      intro other member addr found
      rcases Multiset.mem_cons.mp member with rfl | old
      · exact (vacant addr found).elim (mine addr) id
      · exact theirs other old addr found
    · rw [sessions]
      refine (reached.listed arc (opened arc alive)).imp_right fun some_task => ?_
      exact closes_cons task' some_task fun own => closes.trans own
  | opens packet route opened =>
    subst opened
    have new := HashMap.lookup_insert_eq s.relay.sessions packet.clientAddr
    refine ⟨reached.holders.move (.keeps rfl), fun other member addr found => ?_,
      fun arc alive => ?_⟩
    · -- no other task has found an address vacant, since it would hold the lock
      rcases Multiset.mem_cons.mp member with rfl | old
      · cases found
      · have free := reached.holders.others_free rfl other old
        rw [holdsLock_of_vacant found] at free
        cases free
    · have opened := Index.openVia_insertSession s.relay.toIndex packet.clientAddr packet.via route
        arc
      by_cases own : arc = s.relay.opened.length
      · subst own
        refine .inl ⟨packet.clientAddr, ?_⟩
        exact (new packet.clientAddr s.relay.opened.length).trans (if_pos rfl)
      · rw [if_neg own] at opened
        have before : (s.relay.openVia arc).isSome := opened ▸ alive
        rcases reached.listed arc before with ⟨addr, there⟩ | closing
        · -- the address was vacant under the lock, so no session is replaced
          have apart : addr ≠ packet.clientAddr := by
            rintro rfl
            rw [mine packet.clientAddr rfl] at there
            cases there
          exact .inl ⟨addr, (new addr s.relay.opened.length).trans ((if_neg apart).trans there)⟩
        · exact .inr (closes_cons _ closing fun none => by cases none)
  | removes addr arc rest closing found =>
    subst closing
    have erased := HashMap.lookup_erase_eq s.relay.sessions addr
    refine ⟨reached.holders.move (.keeps rfl), fun other member vacated found => ?_,
      fun arc' alive => ?_⟩
    · rcases Multiset.mem_cons.mp member with rfl | old
      · cases found
      · exact (erased vacated).trans (by rw [theirs other old vacated found, ite_self])
    · rcases reached.listed arc' alive with ⟨addr', there⟩ | closing
      · by_cases same : addr' = addr
        · -- the session leaves the map, and is this task's to kill
          subst same
          rw [found] at there
          cases there
          exact .inr ⟨_, Multiset.mem_cons_self _ _, rfl⟩
        · exact .inl ⟨addr', (erased addr').trans ((if_neg same).trans there)⟩
      · exact .inr (closes_cons _ closing fun none => by cases none)
  | kills arc rest removed =>
    subst removed
    have sessions : (s.relay.markDead arc).sessions = s.relay.sessions :=
      (Index.markDead_frame _ _).1
    refine ⟨reached.holders.move (.keeps rfl), fun other member addr found => ?_,
      fun arc' alive => ?_⟩
    · refine (congrArg (AList.lookup addr) sessions).trans ?_
      rcases Multiset.mem_cons.mp member with rfl | old
      · cases found
      · exact theirs other old addr found
    · have dead := Index.openVia_markDead s.relay.toIndex arc arc'
      by_cases own : arc' = arc
      · rw [if_pos own] at dead
        have opened : ((s.relay.markDead arc).openVia arc').isSome := alive
        rw [dead] at opened
        cases opened
      · rw [if_neg own] at dead
        have before : (s.relay.openVia arc').isSome := dead ▸ alive
        rcases reached.listed arc' before with ⟨addr, there⟩ | closing
        · exact .inl ⟨addr, (congrArg (AList.lookup addr) sessions).trans there⟩
        · refine .inr (closes_cons _ closing fun mine => ?_)
          exact absurd (Option.some.inj mine) (Ne.symm own)

private theorem Reached.sessionsListed {pool : Pool Gateway Task}
    (reached : Reached pool.shared pool.threads) : SessionsListed pool := by
  intro atRest arc opened
  refine (reached.listed arc opened).resolve_right ?_
  rintro ⟨task, member, closes⟩
  have rests := atRest task member
  cases task with
  | removed | unindexed => cases rests
  | _ => cases closes

private theorem always_reached (expectProxyProtocol : Bool) (throttle : Config.UdpThrottleConfig)
    (events : List (Event Task Choice)) :
    Always (Threads.step fresh advance)
      (fun pool => Reached pool.shared (pool.threads : Multiset Task))
      ⟨⟨.new expectProxyProtocol, .empty, false, throttle⟩, []⟩ events := by
  refine always_of_keep (fun pool event next reached stepped => ?_) events ?_
  · refine @step_bag _ _ _ fresh advance Reached (fun _ _ _ => True) (fun _ _ _ => Reached.spawn)
      ?_ _ _ _ reached (amongCond_of_forall fun _ _ _ => trivial) stepped
    intro shared task others choice shared' task' reached _ moved
    exact (places_of_advance moved).reached reached
  · refine ⟨rfl, fun task member => ?_, fun arc opened => ?_⟩
    · cases member
    · cases opened

/-- In every interleaving in which sessions are inserted in time, no session outlives the
connections of its client's IP: a session that is not dead is in the map, and then there is one. -/
theorem sessionsLive_of_insertsInTime (expectProxyProtocol : Bool)
    (throttle : Config.UdpThrottleConfig) (events : List (Event Task Choice))
    (inTime : Guarded (Threads.step fresh advance) InsertsInTime
      ⟨⟨.new expectProxyProtocol, .empty, false, throttle⟩, []⟩ events) :
    Always (Threads.step fresh advance) (fun pool => SessionsLive pool ∧ SessionsListed pool)
      ⟨⟨.new expectProxyProtocol, .empty, false, throttle⟩, []⟩ events := by
  have legitimate : Always (Threads.step fresh advance) Legitimate
      ⟨⟨.new expectProxyProtocol, .empty, false, throttle⟩, []⟩ events := by
    refine always_of_guarded (fun pool event next => step_legitimate) ?_ inTime
    refine ⟨⟨fun ip => rfl, fun call member => ?_⟩, fun addr stored => ?_⟩
    · cases member
    · cases stored
  have reached := always_reached expectProxyProtocol throttle events
  exact (legitimate.and reached).imp fun pool holds =>
    ⟨holds.1.sessionsLive, holds.2.sessionsListed⟩

def voicePacket : Packet :=
  ⟨⟨.v4 ⟨203, 0, 113, 7⟩, 4000⟩, ⟨.v4 ⟨203, 0, 113, 7⟩, 4000⟩, literal "voice"⟩

def voiceLogin : Task :=
  .login "203.0.113.7".toList "play.example.com".toList ⟨.v4 ⟨10, 0, 0, 5⟩, 24454⟩

/-- Task `i` takes `n` steps; sockets open. -/
def moves (i n : Nat) : List (Event Task Choice) := List.replicate n (.move i ⟨0, true⟩)

def emptyGateway : Pool Gateway Task := ⟨⟨.new false, .empty, false, {}⟩, []⟩

/-- The player logs out after the session is inserted, and it is closed. -/
theorem sessionsLive_when_inserted_before :
    (run (Threads.step fresh advance) emptyGateway
        (.spawn voiceLogin :: moves 0 1 ++ .spawn (.arrived voicePacket) :: moves 1 8 ++
          moves 0 7 ++ moves 1 3)).isSome ∧
      Always (Threads.step fresh advance) (fun pool => SessionsLive pool ∧ SessionsListed pool)
        emptyGateway (.spawn voiceLogin :: moves 0 1 ++ .spawn (.arrived voicePacket) ::
          moves 1 8 ++ moves 0 7 ++ moves 1 3) :=
  ⟨by decide, sessionsLive_of_insertsInTime false {} _ (by decide)⟩

/-- The player logs out while the socket is being opened, and the session stays. -/
theorem session_after_logout :
    ¬ ∀ (expectProxyProtocol : Bool) (throttle : Config.UdpThrottleConfig)
        (events : List (Event Task Choice)) (last : Pool Gateway Task),
      run (Threads.step fresh advance)
        ⟨⟨.new expectProxyProtocol, .empty, false, throttle⟩, []⟩ events = some last →
      SessionsLive last := by
  intro always
  have live := always false {}
    (.spawn voiceLogin :: moves 0 1 ++ .spawn (.arrived voicePacket) :: moves 1 7 ++ moves 0 3 ++
      moves 1 4) _ rfl (by decide) voicePacket.clientAddr 0 (by decide)
  exact absurd live (by decide)

end Task

end MCGate.VoiceRelay
