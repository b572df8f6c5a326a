import MCGate.Lib.Threads
import MCGate.Udp.VoiceLogout

/-!
# UDP relays

`udp/proxy.rs` and `udp/voice_relay.rs` relay datagrams through a session for each client.
They differ in where a session leads to, in the second index of the voice relay, in who may
close a session and in what a reader does with an error; the rest is the same, and is modelled
once. Each section under a lock is a step, and so is each access to an atomic. A session has a
task that reads from its backend; whoever closes the session aborts it through its handle.
-/
namespace MCGate.UdpRelay

open Config Machine Threads
open VoiceRelay (Index Packet Session Shared)

/-- `udp/proxy.rs` with its backend, or `udp/voice_relay.rs`. -/
inductive Kind where
  | proxy (backend : SocketAddr)
  | voice (expectProxyProtocol : Bool)
  deriving DecidableEq, Repr

inductive Reader where
  | unspawned
  | running
  | ended
  deriving DecidableEq, Repr

/-- The fields of a session that `VoiceRelay.Session` does not have, and its reader task.
Only the statements read `aborted`, whether the task was aborted, and `reserved`, whether the
session was admitted with a slot of its IP. -/
structure Life where
  createdAt : Instant
  lastActive : Instant
  backendReplied : Bool
  readerHandle : Bool
  reader : Reader
  aborted : Bool
  reserved : Bool
  deriving DecidableEq, Repr

/-- A relay; the life of a session stands where the session stands in `opened`. `replies` is what
the readers of sessions have sent to clients. -/
structure Relay extends Shared where
  kind : Kind
  lives : List Life
  createLock : Bool
  replies : List (Nat × SocketAddr × Bytes)

namespace Relay

def new (kind : Kind) : Relay :=
  match kind with
  | .proxy _ => ⟨.new false, kind, [], false, []⟩
  | .voice expectProxyProtocol => ⟨.new expectProxyProtocol, kind, [], false, []⟩

def withIndex (s : Relay) (index : Index) : Relay :=
  { s with toShared := { s.toShared with toIndex := index } }

def modifyLife (s : Relay) (arc : Nat) (f : Life → Life) : Relay :=
  { s with lives := s.lives.modify arc f }

/-- `*session.last_active.lock().unwrap() = Instant::now()` -/
def touch (s : Relay) (arc : Nat) (now : Instant) : Relay :=
  s.modifyLife arc fun life => { life with lastActive := now }

/-- `Arc::new(Session { .. })` and its insertion into `sessions`. -/
def insert (s : Relay) (packet : Packet) (route : VoiceRouting.Entry) (now : Instant)
    (reserved : Bool) : Relay :=
  { s.withIndex (s.insertSession packet.clientAddr packet.via route) with
    lives := s.lives ++ [⟨now, now, false, false, .unspawned, false, reserved⟩] }

/-- The end of `close_session`: the handle is taken and the task aborted, if it is there. -/
def takeHandle (s : Relay) (arc : Nat) : Relay :=
  s.modifyLife arc fun life =>
    if life.readerHandle then
      { life with
        readerHandle := false
        reader := if life.reader = .running then .ended else life.reader
        aborted := true }
    else life

/-- What `evict_stale_sessions` tests. -/
def isStale (s : Relay) (throttle : UdpThrottleConfig) (now : Instant) (arc : Nat) : Bool :=
  match s.lives[arc]? with
  | none => false
  | some life =>
    let idle := decide (fromMillis throttle.idleTimeoutMillis < now - life.lastActive)
    let noReplyExpired := !life.backendReplied && decide (0 < throttle.noReplyTeardownMillis) &&
      decide (throttle.noReplyTeardownMillis < Int64.ofNat ((now - life.createdAt) / 1000000))
    idle || noReplyExpired

def staleSessions (s : Relay) (throttle : UdpThrottleConfig) (now : Instant) : List SocketAddr :=
  (s.sessions.entries.filter fun entry => s.isStale throttle now entry.2).map Sigma.fst

/-- `send_to` the address that the session is reached by, for a proxy its client's. -/
def reply (s : Relay) (arc : Nat) (content : Bytes) : Relay :=
  match s.opened[arc]? with
  | none => s
  | some session => { s with replies := s.replies ++ [(arc, session.via, content)] }

/-- The slot that a session was admitted with. -/
def slotOf (s : Relay) (arc : Nat) : Option Text :=
  match s.opened[arc]?, s.lives[arc]? with
  | some session, some life => if life.reserved then some session.clientIp else none
  | _, _ => none

end Relay

/-- A task after each of its steps: a datagram, an eviction, a player who leaves, or a reader
with a packet or an error. Only the statements read `slot`, what the session that is closed
was admitted with. -/
inductive Task where
  /-- `handle_client_packet` of a proxy, to which `via` is the client, or `handle_for_client` is
  called -/
  | arrived (packet : Packet)
  | waiting (packet : Packet)
  | locked (packet : Packet)
  | unrouted (packet : Packet)
  | routed (packet : Packet) (route : VoiceRouting.Entry)
  | capRead (packet : Packet) (route : VoiceRouting.Entry) (globalCap : Int32)
  | belowCap (packet : Packet) (route : VoiceRouting.Entry)
  | perIpRead (packet : Packet) (route : VoiceRouting.Entry) (perIpCap : Int32)
  | slotAcquired (packet : Packet) (route : VoiceRouting.Entry) (reserved : Bool)
  | socketOpened (packet : Packet) (route : VoiceRouting.Entry) (reserved : Bool)
  | socketFailed (packet : Packet) (reserved : Bool)
  | inserted (packet : Packet) (arc : Nat)
  | indexed (packet : Packet) (arc : Nat)
  | unlocked (packet : Packet) (arc : Nat)
  | spawned (packet : Packet) (arc : Nat)
  /-- the call returns without a session -/
  | refused
  /-- the session was there at the second look -/
  | foundLocked (packet : Packet) (arc : Nat)
  | touchedLocked (packet : Packet) (arc : Nat)
  | found (packet : Packet) (arc : Nat)
  | touched (packet : Packet) (arc : Nat)
  | forwarding (content : Bytes) (arc : Nat)
  /-- a datagram without a PROXY header -/
  | headerless (via : SocketAddr) (content : Bytes)
  | known (content : Bytes) (arc : Nat)
  | done
  /-- `evict_stale_sessions` is called -/
  | evict
  /-- `disconnect_client` is called -/
  | disconnect (clientIp : Text)
  | closing (rest : List SocketAddr)
  | removed (arc : Nat) (rest : List SocketAddr) (slot : Option Text)
  | unindexed (arc : Nat) (rest : List SocketAddr) (slot : Option Text)
  | killed (arc : Nat) (rest : List SocketAddr) (slot : Option Text)
  | released (arc : Nat) (rest : List SocketAddr)
  /-- the reader of a session has received a packet -/
  | received (arc : Nat) (content : Bytes)
  | replying (arc : Nat) (content : Bytes)
  | replied (arc : Nat) (content : Bytes)
  /-- the reader has received an error -/
  | recvFailed (arc : Nat)
  deriving DecidableEq

/-- What the environment decides at a step: the clock, whether a socket opens, and what
`voice_routing().resolve(..)` returns. -/
structure Choice where
  now : Instant
  opens : Bool
  route : Option VoiceRouting.Entry
  deriving DecidableEq

namespace Task

open UdpRelay.Relay

def fresh : Task → Bool
  | .arrived _ => true
  | .headerless _ _ => true
  | .evict => true
  | .disconnect _ => true
  | .received _ _ => true
  | .recvFailed _ => true
  | _ => false

def advance (throttle : UdpThrottleConfig) (s : Relay) (task : Task) (choice : Choice) :
    Option (Relay × Task) :=
  match task with
  | .arrived packet =>
    match s.sessions.lookup packet.clientAddr with
    | some existing => some (s, .found packet existing)
    | none => some (s, .waiting packet)
  | .waiting packet =>
    if s.createLock then none else some ({ s with createLock := true }, .locked packet)
  | .locked packet =>
    match s.sessions.lookup packet.clientAddr with
    | some existing => some (s, .foundLocked packet existing)
    | none =>
      match s.kind with
      -- the sessions of a proxy have no host and all lead to its backend
      | .proxy backend => some (s, .routed packet ⟨[], backend, 0, 0⟩)
      | .voice _ => some (s, .unrouted packet)
  | .unrouted packet =>
    match choice.route with
    | none => some (s, .refused)
    | some route => some (s, .routed packet route)
  | .routed packet route => some (s, .capRead packet route throttle.maxSessions)
  | .capRead packet route globalCap =>
    some (s, if s.atCap globalCap then .refused else .belowCap packet route)
  | .belowCap packet route => some (s, .perIpRead packet route throttle.maxSessionsPerIp)
  | .perIpRead packet route perIpCap =>
    let (shared, admitted) := s.acquireIpSlot perIpCap packet.clientIp
    some ({ s with toShared := shared },
      if admitted then .slotAcquired packet route (decide (0 < perIpCap)) else .refused)
  | .slotAcquired packet route reserved =>
    some (s, if choice.opens then .socketOpened packet route reserved
      else .socketFailed packet reserved)
  | .socketFailed packet _ =>
    some ({ s with toShared := s.releaseIpSlot packet.clientIp }, .refused)
  | .socketOpened packet route reserved =>
    some (s.insert packet route choice.now reserved, .inserted packet s.opened.length)
  | .inserted packet arc => some (s.withIndex (s.insertVia packet.via arc), .indexed packet arc)
  | .indexed packet arc => some ({ s with createLock := false }, .unlocked packet arc)
  | .unlocked packet arc =>
    some (s.modifyLife arc fun life => { life with reader := .running }, .spawned packet arc)
  | .spawned packet arc =>
    some (s.modifyLife arc fun life => { life with readerHandle := true },
      .forwarding packet.content arc)
  | .refused => some ({ s with createLock := false }, .done)
  | .foundLocked packet arc =>
    -- the two relays unlock and set `last_active` in different orders
    match s.kind with
    | .proxy _ => some (s.touch arc choice.now, .touchedLocked packet arc)
    | .voice _ => some ({ s with createLock := false }, .found packet arc)
  | .touchedLocked packet arc =>
    some ({ s with createLock := false }, .forwarding packet.content arc)
  | .found packet arc =>
    some (s.touch arc choice.now,
      match s.kind with
      | .proxy _ => .forwarding packet.content arc
      | .voice _ => .touched packet arc)
  | .touched packet arc =>
    some (s.withIndex (s.repointVia arc packet.via), .forwarding packet.content arc)
  | .forwarding content arc => some ({ s with toShared := s.forward arc content }, .done)
  | .headerless via content =>
    match s.kind, s.byVia.lookup via with
    | .voice true, some arc =>
      if (s.openVia arc).isSome then some (s, .known content arc) else some (s, .done)
    | .voice true, none => some (s, .done)
    | _, _ => none
  | .known content arc => some (s.touch arc choice.now, .forwarding content arc)
  | .done => none
  | .evict => some (s, .closing (s.staleSessions throttle choice.now))
  | .disconnect clientIp =>
    match s.kind with
    | .proxy _ => none
    | .voice _ =>
      some (s, .closing (s.sessions.keys.filter fun addr => displayIp addr.ip = clientIp))
  | .closing [] => some (s, .done)
  | .closing (addr :: rest) =>
    match s.sessions.lookup addr with
    | none => some (s, .closing rest)
    | some arc =>
      some (s.withIndex (s.removeSession addr),
        match s.kind with
        | .proxy _ => .unindexed arc rest (s.slotOf arc)
        | .voice _ => .removed arc rest (s.slotOf arc))
  | .removed arc rest slot => some (s.withIndex (s.unindex arc), .unindexed arc rest slot)
  | .unindexed arc rest slot => some (s.withIndex (s.markDead arc), .killed arc rest slot)
  | .killed arc rest _ =>
    match s.opened[arc]? with
    | none => none
    | some session =>
      some ({ s with toShared := s.releaseIpSlot session.clientIp }, .released arc rest)
  | .released arc rest => some (s.takeHandle arc, .closing rest)
  | .received arc content =>
    match s.opened[arc]?, s.lives[arc]? with
    | some session, some life =>
      if life.reader ≠ .running then none
      else if session.dead then
        some (s.modifyLife arc fun life => { life with reader := .ended }, .done)
      else some (s, .replying arc content)
    | _, _ => none
  | .replying arc content =>
    some (s.modifyLife arc fun life =>
      { life with lastActive := choice.now, backendReplied := true }, .replied arc content)
  | .replied arc content => some (s.reply arc content, .done)
  | .recvFailed arc =>
    match s.lives[arc]? with
    | none => none
    | some life =>
      if life.reader ≠ .running then none
      else
        match s.kind with
        | .proxy _ => some (s.modifyLife arc fun life => { life with reader := .ended }, .done)
        | .voice _ => some (s, .done)

/-- The task is not in the middle of an operation. -/
def atRest (task : Task) : Bool := fresh task || decide (task = .done)

end Task

/-! ### All relay paths -/

/-- Every `udpProxy` entry and the voice relay, with the limits that they share. -/
structure Paths where
  throttle : UdpThrottleConfig
  relays : List (Pool Relay Task)

inductive PathEvent where
  /-- one of the stores of `UdpThrottle::apply` -/
  | store (throttle : UdpThrottleConfig)
  | relay (r : Nat) (event : Threads.Event Task Choice)

namespace Paths

def start (throttle : UdpThrottleConfig) (kinds : List Kind) : Paths :=
  ⟨throttle, kinds.map fun kind => ⟨.new kind, []⟩⟩

def step (s : Paths) : PathEvent → Option Paths
  | .store throttle => some { s with throttle }
  | .relay r event => do
    let pool ← s.relays[r]?
    let pool ← Threads.step Task.fresh (Task.advance s.throttle) pool event
    return { s with relays := s.relays.set r pool }

end Paths

namespace PathEvent

/-- Task `i` of relay `r` takes `n` steps. -/
def moves (r i n : Nat) (choice : Choice) : List PathEvent :=
  List.replicate n (.relay r (.move i choice))

end PathEvent

end MCGate.UdpRelay
