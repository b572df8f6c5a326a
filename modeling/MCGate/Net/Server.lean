import MCGate.Net.BufferedStream
import MCGate.Net.ConnectionGuard
import MCGate.Net.FloodControl
import MCGate.Net.IpBan
import MCGate.Net.Sniff
import MCGate.Net.Status
import MCGate.Protocol.ProxyProtocolTcp
import MCGate.State.AppState
import MCGate.State.RouteRuntime
import MCGate.Udp.VoiceRouting

/-!
# Connections from accept to close

`handle_connection` passes a new connection through the ban list, the global cap, the rate
limit, the PROXY header, the ban list again and the pre-login slots of its IP before it reads
the handshake. A login then gives its slot back, is dialled, counted, listed and relayed, and
undoes all of that when the relay ends. Every way out drops the two guards in the same order.

The connections of a pool are such tasks over the tables they share, in any interleaving with
each other and with the calls of the console, the sweepers and the voice relay. A step makes
one access to a table. What a backend does with the bytes is followed elsewhere; here the
environment decides which backends resolve and answer, when a relay ends, and whether a text
that the config or the console has supplied makes the task panic. A task that panics only drops
its locals: the two guards undo what they stand for, and the rest stays in the tables.
-/
namespace MCGate.Server

open Config Machine Threads ProxyProtocol

/-- The tables that all connections share. Only the statements read `recorded`, the sessions
that were given to the connection tracker. -/
structure Shared where
  app : AppState
  bans : IpBanList
  global : GlobalConnections
  rates : ConnectionRates
  preLogin : PreLoginConnections
  /-- the runtimes by their allocation -/
  runtimes : Nat → RouteRuntime
  voice : VoiceRouting
  sessions : PlayerSessions
  nextPtr : Nat
  recorded : List SessionArc

/-- The process has started. -/
def start (config : GateConfig) (messages : GateMessages) : Shared where
  app := AppState.new config messages
  bans := .empty
  global := ⟨0⟩
  rates := .empty
  preLogin := .empty
  runtimes := fun _ => .new
  voice := .empty
  sessions := .empty
  nextPtr := 0
  recorded := []

/-- `addr.ip().to_string()` -/
def ipString (addr : SocketAddr) : Text := displayIp addr.ip

/-- `cfg.auto_ban.max_violations.max(1) as u32` -/
def maxViolations (cfg : GateConfig) : UInt32 :=
  UInt32.ofNat (max cfg.autoBan.maxViolations.toInt 1).toNat

def recordIpViolation (cfg : GateConfig) (bans : IpBanList) (now : Instant) (ip : Text) :
    IpBanList :=
  if !cfg.autoBan.enabled then bans
  else (bans.recordViolation now ip (maxViolations cfg)
    (fromMillis cfg.autoBan.violationWindowMillis) (fromMillis cfg.autoBan.banDurationMillis)).1

/-- `within`: the future is polled before the deadline is looked at. `none` means that the task
waits on, and `some none` that the deadline has passed. -/
def within {α : Type} (deadline : Option Instant) (now : Instant) : Poll α → Option (Option α)
  | .ready value => some (some value)
  | .pending => if deadline.any fun deadline => deadline ≤ now then some none else none

/-! ### What a connection has at hand -/

/-- Behind the first guard. -/
structure Opened where
  peer : SocketAddr
  /-- what the client has still to send -/
  stream : Bytes
  cfg : GateConfig
  global : GlobalConnectionGuard

/-- Behind the PROXY header: `addr` is the client's address. -/
structure Known where
  stream : Bytes
  cfg : GateConfig
  global : GlobalConnectionGuard
  deadline : Option Instant
  addr : SocketAddr

/-- With a pre-login guard. -/
structure Admitted where
  stream : BufferedStream
  cfg : GateConfig
  global : GlobalConnectionGuard
  deadline : Option Instant
  addr : SocketAddr
  guard : PreLoginGuard

/-- Routed; `runtime` is `none` for a runtime of its own, `unwrap_or_default`. -/
structure Routed extends Admitted where
  handshake : Handshake
  route : Config.Route
  runtime : Option Nat

/-- Behind `guard.done()`. -/
structure LoggedIn where
  global : GlobalConnectionGuard
  addr : SocketAddr
  guard : PreLoginGuard
  done : guard.released = true
  handshake : Handshake
  route : Config.Route
  runtime : Option Nat
  player : Option (Text × Option Uuid)

/-- With the backend that was reached, whether a voice route was registered, and the session
that was listed. -/
structure Served extends LoggedIn where
  backend : SocketAddr
  voice : Bool
  session : Option SessionArc

/-- What is left to say of a connection on its way out. Only the statements read `offended`,
whether a violation was recorded for it, `session`, the one given to the tracker, and
`abandoned`, the login that a panic has ended, with what it has left in the tables. -/
structure Ending where
  addr : SocketAddr
  offended : Bool := false
  session : Option SessionArc := none
  abandoned : Option Served := none

/-- Where `handle_connection` stands: what it does next, with its locals. -/
inductive Conn where
  | accepted (peer : SocketAddr) (stream : Bytes)
  | checkingBan (peer : SocketAddr) (stream : Bytes) (cfg : GateConfig)
  | acquiring (peer : SocketAddr) (stream : Bytes) (cfg : GateConfig) (task : GuardTask)
  | limitingRate (o : Opened)
  | readingHeader (o : Opened) (deadline : Option Instant)
  | checkingBanAgain (k : Known)
  | reserving (k : Known)
  | readingHandshake (a : Admitted)
  /-- a route has matched, and its runtime is looked up -/
  | routing (a : Admitted) (handshake : Handshake) (index : Nat) (route : Config.Route)
  | readingStatusRequest (r : Routed)
  /-- a status request has been read; `handle_status` goes on to the backends -/
  | answeringStatus (r : Routed) (request : Bytes)
  | checkingLimit (r : Routed)
  | readingLoginStart (r : Routed)
  /-- Login Start has been read: `guard.done()` -/
  | provenReal (r : Routed) (player : Option (Text × Option Uuid))
  | resolving (l : LoggedIn)
  | dialing (l : LoggedIn) (backends : List SocketAddr)
  | counting (l : LoggedIn) (backend : SocketAddr)
  | timing (l : LoggedIn) (backend : SocketAddr)
  | registeringVoice (l : LoggedIn) (backend : SocketAddr)
  | sniffing (l : LoggedIn) (backend : SocketAddr) (voice : Bool)
  | relaying (v : Served)
  | discounting (v : Served)
  | unlisting (v : Served)
  | recording (v : Served) (session : SessionArc) (own : v.session = some session)
  | unregisteringVoice (v : Served)
  /-- a violation is recorded under `cfg`, if auto-ban is switched on there -/
  | offending (cfg : GateConfig) (addr : SocketAddr) (global : GlobalConnectionGuard)
      (guard : Option PreLoginGuard)
  /-- the locals are dropped, the pre-login guard first -/
  | dropping (global : GlobalConnectionGuard) (guard : Option PreLoginGuard) (ending : Ending)
  | closing (global : GlobalConnectionGuard) (ending : Ending)
  | closed (ending : Ending)

/-- What the environment decides about a step. -/
structure Choice where
  now : Instant
  /-- the answers of the client's socket -/
  arrivals : List Arrival := []
  /-- the route's usage has reached its limit -/
  exceeded : Bool := false
  /-- what the route's backends resolve to, in the order of its strategy; `none` also where a
  template makes the task panic -/
  resolved : Option (List SocketAddr) := none
  /-- the backend was reached, and took the handshake and the Login Start -/
  connected : Bool := false
  latency : Int64 := 0
  /-- what the route's voice backend resolves to -/
  voice : Option SocketAddr := none
  /-- what `sniff_backend_login` returns -/
  sniffed : Option (Int32 × Bool) := none
  /-- a voice template, or the message of a kick, makes the task panic -/
  panics : Bool := false

namespace Conn

/-- The pre-login phase ends without a login. -/
def leave (a : Admitted) : Conn := .dropping a.global (some a.guard) { addr := a.addr }

def offend (cfg : GateConfig) (a : Admitted) : Conn :=
  .offending cfg a.addr a.global (some a.guard)

/-- A login that comes to nothing, with or without a kick. -/
def giveUp (l : LoggedIn) : Conn := .dropping l.global (some l.guard) { addr := l.addr }

/-- A login panics: its locals are dropped, and nothing else is undone. -/
def abandon (v : Served) : Conn :=
  .dropping v.global (some v.guard) { addr := v.addr, abandoned := some v }

def updateRuntime (s : Shared) (runtime : Option Nat) (f : RouteRuntime → RouteRuntime) : Shared :=
  match runtime with
  | none => s
  | some arc => { s with runtimes := Function.update s.runtimes arc (f (s.runtimes arc)) }

theorem released_release (guard : PreLoginGuard) (connections : PreLoginConnections) :
    (guard.release connections).2.released = true := by
  obtain ⟨ip, released⟩ := guard
  cases released <;> rfl

variable (toLowercase : Text → Text)

/-- The steps up to the pre-login guard. -/
def advanceFront (s : Shared) (choice : Choice) : Conn → Option (Shared × Conn)
  | .accepted peer stream => some (s, .checkingBan peer stream s.app.config)
  | .checkingBan peer stream cfg =>
    -- under `proxy_protocol` the peer is the load balancer
    if !cfg.proxyProtocol && cfg.autoBan.enabled then
      let (bans, banned) := s.bans.isBanned choice.now (ipString peer)
      some ({ s with bans },
        if banned then .closed { addr := peer } else .acquiring peer stream cfg .acquire)
    else some (s, .acquiring peer stream cfg .acquire)
  | .acquiring peer stream cfg task =>
    match task with
    | .guard global => some (s, .limitingRate ⟨peer, stream, cfg, global⟩)
    | .rejected => some (s, .closed { addr := peer })
    | task =>
      (task.advance cfg.connectionThrottle.maxConnections.toInt s.global ()).map
        fun (global, task) => ({ s with global }, .acquiring peer stream cfg task)
  | .limitingRate o =>
    let deadline :=
      if 0 < o.cfg.loginTimeoutMillis then
        some (choice.now + fromMillis o.cfg.loginTimeoutMillis) else none
    if !o.cfg.proxyProtocol && 0 < o.cfg.connectionThrottle.maxPerIpPerWindow then
      let (rates, admitted) := s.rates.tryAcquire choice.now (ipString o.peer)
        o.cfg.connectionThrottle.maxPerIpPerWindow.toUInt32
        (fromMillis o.cfg.connectionThrottle.windowMillis)
      some ({ s with rates },
        if admitted then .readingHeader o deadline
        else .offending o.cfg o.peer o.global none)
    else some (s, .readingHeader o deadline)
  | .readingHeader o deadline =>
    if o.cfg.proxyProtocol then
      let (header, stream, _) := readProxyProtocolHeader o.stream choice.arrivals
      let known := fun addr => Conn.checkingBanAgain ⟨stream, o.cfg, o.global, deadline, addr⟩
      (within deadline choice.now header).map fun header =>
        (s, match header with
          | some (.ok (some addr)) => known addr
          -- v2 LOCAL
          | some (.ok none) => known o.peer
          -- not a violation: `peer` is the fronting proxy here
          | some (.error _) | none => .dropping o.global none { addr := o.peer })
    else some (s, .reserving ⟨o.stream, o.cfg, o.global, deadline, o.peer⟩)
  | .checkingBanAgain k =>
    if k.cfg.autoBan.enabled then
      let (bans, banned) := s.bans.isBanned choice.now (ipString k.addr)
      some ({ s with bans },
        if banned then .dropping k.global none { addr := k.addr } else .reserving k)
    else some (s, .reserving k)
  | .reserving k =>
    let (preLogin, guard) := PreLoginGuard.acquire s.preLogin (some (ipString k.addr))
      (UInt32.ofNat k.cfg.maxConnectionsPerIp.toInt.toNat)
    some ({ s with preLogin }, match guard with
      | none => .offending k.cfg k.addr k.global none
      | some guard =>
        .readingHandshake ⟨.new k.stream, k.cfg, k.global, k.deadline, k.addr, guard⟩)
  | _ => none

/-- The steps up to the end of the pre-login phase. -/
def advancePreLogin (s : Shared) (choice : Choice) : Conn → Option (Shared × Conn)
  | .readingHandshake a =>
    let (read, stream) := a.stream.readHandshake choice.arrivals
    (within a.deadline choice.now read).map fun read =>
      (s, match read with
        | none => offend a.cfg a
        -- a health check or a scanner
        | some (.error .eof) => leave a
        | some (.error _) => offend a.cfg a
        | some (.ok handshake) =>
          match matchRoute toLowercase handshake.host 0 a.cfg.routes with
          | some (some (index, route, _)) => .routing { a with stream } handshake index route
          | _ => leave a)
  | .routing a handshake index route =>
    let runtime := (s.app.routeRuntime index).map Assigned.arc
    let routed : Routed := { a with handshake, route, runtime }
    some (s,
      if handshake.nextState = 1 then .readingStatusRequest routed else .checkingLimit routed)
  | .readingStatusRequest r =>
    let (read, stream) := r.stream.readFrame MAX_PACKET_BYTES choice.arrivals
    (within r.deadline choice.now read).map fun read =>
      (s, match read with
        | some (.ok frame) =>
          if isStatusRequest frame then .answeringStatus { r with stream } frame
          else leave r.toAdmitted
        -- a status that is not asked for in time is no violation
        | some (.error _) | none => leave r.toAdmitted)
  | .answeringStatus r _ => some (s, leave r.toAdmitted)
  | .checkingLimit r =>
    some (s, if choice.exceeded then leave r.toAdmitted else .readingLoginStart r)
  | .readingLoginStart r =>
    let (read, stream) := r.stream.readFrame MAX_PACKET_BYTES choice.arrivals
    (within r.deadline choice.now read).map fun read =>
      (s, match read with
        -- here the live config decides what a violation counts for
        | none => offend s.app.config r.toAdmitted
        | some (.error _) => leave r.toAdmitted
        | some (.ok frame) => .provenReal { r with stream } (parseLoginStart frame))
  | .provenReal r player =>
    some ({ s with preLogin := (r.guard.release s.preLogin).1 }, .resolving {
      global := r.global, addr := r.addr, guard := (r.guard.release s.preLogin).2
      done := released_release r.guard s.preLogin
      handshake := r.handshake, route := r.route, runtime := r.runtime, player })
  | _ => none

/-- The steps of a login that was proven real. -/
def advanceLogin (s : Shared) (choice : Choice) : Conn → Option (Shared × Conn)
  | .resolving l =>
    some (s, match choice.resolved with
      | none => giveUp l
      | some backends => .dialing l backends)
  | .dialing l [] => some (s, giveUp l)
  | .dialing l (backend :: rest) =>
    some (s, if choice.connected then .counting l backend else .dialing l rest)
  | .counting l backend =>
    some (updateRuntime s l.runtime fun runtime => runtime.recordConnectOpened backend,
      .timing l backend)
  | .timing l backend =>
    some (updateRuntime s l.runtime fun runtime =>
      runtime.recordLatency choice.now backend choice.latency, .registeringVoice l backend)
  | .registeringVoice l backend =>
    if l.route.voicechatTemplates.isEmpty then some (s, .sniffing l backend false)
    else if choice.panics then some (s, abandon { l with backend, voice := false, session := none })
    else match choice.voice with
      | none => some (s, .sniffing l backend false)
      | some voiceBackend =>
        some ({ s with
          voice := s.voice.register choice.now (ipString l.addr) l.handshake.host voiceBackend },
          .sniffing l backend true)
  | .sniffing l backend voice =>
    match storeSession l.player l.handshake.host l.handshake.protocolVersion choice.sniffed with
    | none => some (s, .relaying { l with backend, voice, session := none })
    | some session =>
      let session : SessionArc := ⟨s.nextPtr, session⟩
      some ({ s with sessions := s.sessions.put session, nextPtr := s.nextPtr + 1 },
        .relaying { l with backend, voice, session := some session })
  | .relaying v => some (s, if choice.panics then abandon v else .discounting v)
  | .discounting v =>
    some (updateRuntime s v.runtime fun runtime => runtime.recordConnectClosed v.backend,
      .unlisting v)
  | .unlisting v =>
    match own : v.session with
    | none => some (s, .unregisteringVoice v)
    | some session =>
      some ({ s with sessions := s.sessions.remove session.session.uuid }, .recording v session own)
  | .recording v session _ =>
    some ({ s with recorded := session :: s.recorded }, .unregisteringVoice v)
  | .unregisteringVoice v =>
    let ending : Ending := { addr := v.addr, session := v.session }
    some (if v.voice then { s with voice := (s.voice.unregister (ipString v.addr)).1 } else s,
      .dropping v.global (some v.guard) ending)
  | _ => none

/-- The steps of a connection on its way out. -/
def advanceEnd (s : Shared) (choice : Choice) : Conn → Option (Shared × Conn)
  | .offending cfg addr global guard =>
    some ({ s with bans := recordIpViolation cfg s.bans choice.now (ipString addr) },
      .dropping global guard { addr, offended := cfg.autoBan.enabled })
  | .dropping global guard ending =>
    some (match guard with
      | none => s
      | some guard => { s with preLogin := (guard.release s.preLogin).1 }, .closing global ending)
  | .closing global ending =>
    ((GuardTask.guard global).advance 0 s.global ()).map
      fun (global, _) => ({ s with global }, .closed ending)
  | _ => none

/-- One step of `handle_connection`. -/
def advance (s : Shared) (choice : Choice) (conn : Conn) : Option (Shared × Conn) :=
  advanceFront s choice conn <|> advancePreLogin toLowercase s choice conn <|>
    advanceLogin s choice conn <|> advanceEnd s choice conn

end Conn

/-! ### The other parties -/

/-- A call of something else that writes to the tables. -/
inductive Operation where
  | setConfig (newConfig : GateConfig)
  /-- the console's `ban` -/
  | ban (ip : Text) (duration : Nat)
  | unban (ip : Text)
  | sweepBans
  | sweepRates
  | resolveVoice (clientIp : Text)
  | evictIdleVoice

def Operation.apply (s : Shared) (now : Instant) : Operation → Shared
  | .setConfig newConfig => { s with app := s.app.setConfig newConfig }
  | .ban ip duration => { s with bans := s.bans.ban now ip duration }
  | .unban ip => { s with bans := (s.bans.unban now ip).1 }
  | .sweepBans => { s with bans := s.bans.sweep now }
  | .sweepRates => { s with rates := s.rates.sweep now }
  | .resolveVoice clientIp => { s with voice := (s.voice.resolve now clientIp).1 }
  | .evictIdleVoice => { s with voice := s.voice.evictIdle now }

inductive Party where
  | connection (conn : Conn)
  | calls (operation : Operation)
  | returned (operation : Operation)

namespace Party

def fresh : Party → Bool
  | .connection (.accepted _ _) => true
  | .calls _ => true
  | _ => false

def advance (toLowercase : Text → Text) (s : Shared) : Party → Choice → Option (Shared × Party)
  | .connection conn, choice =>
    (conn.advance toLowercase s choice).map fun (s, conn) => (s, .connection conn)
  | .calls operation, choice => some (operation.apply s choice.now, .returned operation)
  | .returned _, _ => none

/-- Nothing more happens. -/
def ended : Party → Bool
  | .connection (.closed _) | .returned _ => true
  | _ => false

end Party

abbrev Gate := Pool Shared Party

def Gate.step (toLowercase : Text → Text) : Gate → Event Party Choice → Option Gate :=
  Threads.step Party.fresh (Party.advance toLowercase)

def Gate.start (config : GateConfig) (messages : GateMessages) : Gate :=
  ⟨Server.start config messages, []⟩

end MCGate.Server
