import MCGate.Net.Server

/-!
# The steps of a connection

`Conn.Step` says once what a step of `handle_connection` needs, what it writes and where it leads,
one rule for each way on. What holds of every connection is read off the rules.
-/
namespace MCGate.Server

open Config Machine Threads ProxyProtocol

namespace Conn

/-- The deadline of the whole pre-login phase. -/
def deadlineFrom (cfg : GateConfig) (now : Instant) : Option Instant :=
  if 0 < cfg.loginTimeoutMillis then some (now + fromMillis cfg.loginTimeoutMillis) else none

/-- What a step can do: the state of the connection, the tables and the state after it. -/
inductive Step (toLowercase : Text → Text) (s : Shared) (choice : Choice) :
    Conn → Shared → Conn → Prop
  | accept (peer : SocketAddr) (stream : Bytes) :
    Step toLowercase s choice (.accepted peer stream) s (.checkingBan peer stream s.app.config)
  -- the ban list is asked about the peer
  | turnAway (peer : SocketAddr) (stream : Bytes) (cfg : GateConfig)
    (banned : (s.bans.isBanned choice.now (ipString peer)).2 = true) :
    Step toLowercase s choice (.checkingBan peer stream cfg)
      { s with bans := (s.bans.isBanned choice.now (ipString peer)).1 } (.closed { addr := peer })
  | pass (peer : SocketAddr) (stream : Bytes) (cfg : GateConfig)
    (direct : cfg.proxyProtocol = false)
    (free : (s.bans.isBanned choice.now (ipString peer)).2 = false) :
    Step toLowercase s choice (.checkingBan peer stream cfg)
      { s with bans := (s.bans.isBanned choice.now (ipString peer)).1 }
      (.acquiring peer stream cfg .acquire)
  | skipBan (peer : SocketAddr) (stream : Bytes) (cfg : GateConfig)
    (unasked : cfg.proxyProtocol = true ∨ cfg.autoBan.enabled = false) :
    Step toLowercase s choice (.checkingBan peer stream cfg) s (.acquiring peer stream cfg .acquire)
  -- the global cap
  | uncapped (peer : SocketAddr) (stream : Bytes) (cfg : GateConfig)
    (off : cfg.connectionThrottle.maxConnections.toInt ≤ 0) :
    Step toLowercase s choice (.acquiring peer stream cfg .acquire) s
      (.acquiring peer stream cfg (.guard ⟨true⟩))
  | count (peer : SocketAddr) (stream : Bytes) (cfg : GateConfig) :
    Step toLowercase s choice (.acquiring peer stream cfg .acquire)
      { s with global := ⟨s.global.count + 1⟩ }
      (.acquiring peer stream cfg (.compare (s.global.count + 1)))
  | fits (peer : SocketAddr) (stream : Bytes) (cfg : GateConfig) (count : Int)
    (room : count ≤ cfg.connectionThrottle.maxConnections.toInt) :
    Step toLowercase s choice (.acquiring peer stream cfg (.compare count)) s
      (.acquiring peer stream cfg (.guard ⟨false⟩))
  | exceeds (peer : SocketAddr) (stream : Bytes) (cfg : GateConfig) (count : Int) :
    Step toLowercase s choice (.acquiring peer stream cfg (.compare count)) s
      (.acquiring peer stream cfg .undo)
  | undo (peer : SocketAddr) (stream : Bytes) (cfg : GateConfig) :
    Step toLowercase s choice (.acquiring peer stream cfg .undo)
      { s with global := ⟨s.global.count - 1⟩ } (.acquiring peer stream cfg .rejected)
  | reject (peer : SocketAddr) (stream : Bytes) (cfg : GateConfig) :
    Step toLowercase s choice (.acquiring peer stream cfg .rejected) s (.closed { addr := peer })
  | enter (peer : SocketAddr) (stream : Bytes) (cfg : GateConfig) (global : GlobalConnectionGuard) :
    Step toLowercase s choice (.acquiring peer stream cfg (.guard global)) s
      (.limitingRate ⟨peer, stream, cfg, global⟩)
  -- the rate limit of the peer
  | paced (o : Opened) (rates : ConnectionRates) :
    Step toLowercase s choice (.limitingRate o) { s with rates }
      (.readingHeader o (deadlineFrom o.cfg choice.now))
  | throttle (o : Opened) (rates : ConnectionRates) :
    Step toLowercase s choice (.limitingRate o) { s with rates }
      (.offending o.cfg o.peer o.global none)
  -- the PROXY header, and the ban list about the client
  | header (o : Opened) (deadline : Option Instant) (source : Option SocketAddr) (stream : Bytes)
    (left : List Arrival) (expected : o.cfg.proxyProtocol = true)
    (read : readProxyProtocolHeader o.stream choice.arrivals =
      (.ready (.ok source), stream, left)) :
    Step toLowercase s choice (.readingHeader o deadline) s
      (.checkingBanAgain ⟨stream, o.cfg, o.global, deadline, source.getD o.peer⟩)
  | noHeader (o : Opened) (deadline : Option Instant) (expected : o.cfg.proxyProtocol = true) :
    Step toLowercase s choice (.readingHeader o deadline) s
      (.dropping o.global none { addr := o.peer })
  | direct (o : Opened) (deadline : Option Instant) (unexpected : o.cfg.proxyProtocol = false) :
    Step toLowercase s choice (.readingHeader o deadline) s
      (.reserving ⟨o.stream, o.cfg, o.global, deadline, o.peer⟩)
  | turnClientAway (k : Known)
    (banned : (s.bans.isBanned choice.now (ipString k.addr)).2 = true) :
    Step toLowercase s choice (.checkingBanAgain k)
      { s with bans := (s.bans.isBanned choice.now (ipString k.addr)).1 }
      (.dropping k.global none { addr := k.addr })
  | passClient (k : Known) (free : (s.bans.isBanned choice.now (ipString k.addr)).2 = false) :
    Step toLowercase s choice (.checkingBanAgain k)
      { s with bans := (s.bans.isBanned choice.now (ipString k.addr)).1 } (.reserving k)
  | skipClient (k : Known) (off : k.cfg.autoBan.enabled = false) :
    Step toLowercase s choice (.checkingBanAgain k) s (.reserving k)
  -- the pre-login slots of the client's IP
  | reserve (k : Known) (preLogin : PreLoginConnections) (guard : PreLoginGuard)
    (granted : PreLoginGuard.acquire s.preLogin (some (ipString k.addr))
      (UInt32.ofNat k.cfg.maxConnectionsPerIp.toInt.toNat) = (preLogin, some guard)) :
    Step toLowercase s choice (.reserving k) { s with preLogin }
      (.readingHandshake ⟨.new k.stream, k.cfg, k.global, k.deadline, k.addr, guard⟩)
  | refuse (k : Known) (preLogin : PreLoginConnections)
    (refused : PreLoginGuard.acquire s.preLogin (some (ipString k.addr))
      (UInt32.ofNat k.cfg.maxConnectionsPerIp.toInt.toNat) = (preLogin, none)) :
    Step toLowercase s choice (.reserving k) { s with preLogin }
      (.offending k.cfg k.addr k.global none)
  -- the handshake
  | badHandshake (a : Admitted) : Step toLowercase s choice (.readingHandshake a) s (offend a.cfg a)
  | noRoute (a : Admitted) : Step toLowercase s choice (.readingHandshake a) s (leave a)
  | route (a : Admitted) (stream : BufferedStream) (handshake : Handshake) (index : Nat)
    (route : Config.Route)
    (read : a.stream.readHandshake choice.arrivals = (.ready (.ok handshake), stream)) :
    Step toLowercase s choice (.readingHandshake a) s
      (.routing { a with stream } handshake index route)
  | status (a : Admitted) (handshake : Handshake) (index : Nat) (route : Config.Route)
    (asked : handshake.nextState = 1) :
    Step toLowercase s choice (.routing a handshake index route) s
      (.readingStatusRequest
        { a with handshake, route, runtime := (s.app.routeRuntime index).map Assigned.arc })
  | login (a : Admitted) (handshake : Handshake) (index : Nat) (route : Config.Route)
    (asked : handshake.nextState ≠ 1) :
    Step toLowercase s choice (.routing a handshake index route) s
      (.checkingLimit
        { a with handshake, route, runtime := (s.app.routeRuntime index).map Assigned.arc })
  -- a status
  | request (r : Routed) (stream : BufferedStream) (frame : Bytes)
    (read : r.stream.readFrame MAX_PACKET_BYTES choice.arrivals = (.ready (.ok frame), stream))
    (asks : isStatusRequest frame = true) :
    Step toLowercase s choice (.readingStatusRequest r) s (.answeringStatus { r with stream } frame)
  | noRequest (r : Routed) :
    Step toLowercase s choice (.readingStatusRequest r) s (leave r.toAdmitted)
  | answer (r : Routed) (request : Bytes) :
    Step toLowercase s choice (.answeringStatus r request) s (leave r.toAdmitted)
  -- the Login Start
  | spent (r : Routed) : Step toLowercase s choice (.checkingLimit r) s (leave r.toAdmitted)
  | unspent (r : Routed) : Step toLowercase s choice (.checkingLimit r) s (.readingLoginStart r)
  | late (r : Routed) :
    Step toLowercase s choice (.readingLoginStart r) s (offend s.app.config r.toAdmitted)
  | badLogin (r : Routed) : Step toLowercase s choice (.readingLoginStart r) s (leave r.toAdmitted)
  | loginStart (r : Routed) (stream : BufferedStream) (frame : Bytes)
    (read : r.stream.readFrame MAX_PACKET_BYTES choice.arrivals = (.ready (.ok frame), stream)) :
    Step toLowercase s choice (.readingLoginStart r) s
      (.provenReal { r with stream } (parseLoginStart frame))
  | prove (r : Routed) (player : Option (Text × Option Uuid)) :
    Step toLowercase s choice (.provenReal r player)
      { s with preLogin := (r.guard.release s.preLogin).1 } (.resolving {
        global := r.global, addr := r.addr, guard := (r.guard.release s.preLogin).2
        done := released_release r.guard s.preLogin
        handshake := r.handshake, route := r.route, runtime := r.runtime, player })
  -- the backends
  | unresolved (l : LoggedIn) : Step toLowercase s choice (.resolving l) s (giveUp l)
  | resolve (l : LoggedIn) (backends : List SocketAddr) :
    Step toLowercase s choice (.resolving l) s (.dialing l backends)
  | unreachable (l : LoggedIn) : Step toLowercase s choice (.dialing l []) s (giveUp l)
  | connect (l : LoggedIn) (backend : SocketAddr) (rest : List SocketAddr) :
    Step toLowercase s choice (.dialing l (backend :: rest)) s (.counting l backend)
  | failOver (l : LoggedIn) (backend : SocketAddr) (rest : List SocketAddr) :
    Step toLowercase s choice (.dialing l (backend :: rest)) s (.dialing l rest)
  | opened (l : LoggedIn) (backend : SocketAddr) :
    Step toLowercase s choice (.counting l backend)
      (updateRuntime s l.runtime fun runtime => runtime.recordConnectOpened backend)
      (.timing l backend)
  | time (l : LoggedIn) (backend : SocketAddr) :
    Step toLowercase s choice (.timing l backend)
      (updateRuntime s l.runtime fun runtime =>
        runtime.recordLatency choice.now backend choice.latency)
      (.registeringVoice l backend)
  -- the relay
  | noVoice (l : LoggedIn) (backend : SocketAddr) :
    Step toLowercase s choice (.registeringVoice l backend) s (.sniffing l backend false)
  | registerVoice (l : LoggedIn) (backend voiceBackend : SocketAddr) :
    Step toLowercase s choice (.registeringVoice l backend)
      { s with
        voice := s.voice.register choice.now (ipString l.addr) l.handshake.host voiceBackend }
      (.sniffing l backend true)
  | panicVoice (l : LoggedIn) (backend : SocketAddr) :
    Step toLowercase s choice (.registeringVoice l backend) s
      (abandon { l with backend, voice := false, session := none })
  | nameless (l : LoggedIn) (backend : SocketAddr) (voice : Bool) :
    Step toLowercase s choice (.sniffing l backend voice) s
      (.relaying { l with backend, voice, session := none })
  | list (l : LoggedIn) (backend : SocketAddr) (voice : Bool) (session : SessionArc) :
    Step toLowercase s choice (.sniffing l backend voice)
      { s with sessions := s.sessions.put session, nextPtr := s.nextPtr + 1 }
      (.relaying { l with backend, voice, session := some session })
  | relayed (v : Served) : Step toLowercase s choice (.relaying v) s (.discounting v)
  | panicRelay (v : Served) : Step toLowercase s choice (.relaying v) s (abandon v)
  | discount (v : Served) :
    Step toLowercase s choice (.discounting v)
      (updateRuntime s v.runtime fun runtime => runtime.recordConnectClosed v.backend)
      (.unlisting v)
  | unlisted (v : Served) (nobody : v.session = none) :
    Step toLowercase s choice (.unlisting v) s (.unregisteringVoice v)
  | unlist (v : Served) (session : SessionArc) (own : v.session = some session) :
    Step toLowercase s choice (.unlisting v)
      { s with sessions := s.sessions.remove session.session.uuid } (.recording v session own)
  | record (v : Served) (session : SessionArc) (own : v.session = some session) :
    Step toLowercase s choice (.recording v session own)
      { s with recorded := session :: s.recorded } (.unregisteringVoice v)
  | silence (v : Served) (voice : v.voice = true) :
    Step toLowercase s choice (.unregisteringVoice v)
      { s with voice := (s.voice.unregister (ipString v.addr)).1 }
      (.dropping v.global (some v.guard) { addr := v.addr, session := v.session })
  | silent (v : Served) (voice : v.voice = false) :
    Step toLowercase s choice (.unregisteringVoice v) s
      (.dropping v.global (some v.guard) { addr := v.addr, session := v.session })
  -- the way out
  | violate (cfg : GateConfig) (addr : SocketAddr) (global : GlobalConnectionGuard)
    (guard : Option PreLoginGuard) :
    Step toLowercase s choice (.offending cfg addr global guard)
      { s with bans := recordIpViolation cfg s.bans choice.now (ipString addr) }
      (.dropping global guard { addr, offended := cfg.autoBan.enabled })
  | drop (global : GlobalConnectionGuard) (ending : Ending) :
    Step toLowercase s choice (.dropping global none ending) s (.closing global ending)
  | release (global : GlobalConnectionGuard) (guard : PreLoginGuard) (ending : Ending) :
    Step toLowercase s choice (.dropping global (some guard) ending)
      { s with preLogin := (guard.release s.preLogin).1 } (.closing global ending)
  | uncounted (ending : Ending) :
    Step toLowercase s choice (.closing ⟨true⟩ ending) s (.closed ending)
  | leaves (ending : Ending) :
    Step toLowercase s choice (.closing ⟨false⟩ ending)
      { s with global := ⟨s.global.count - 1⟩ } (.closed ending)

variable {toLowercase : Text → Text} {s s' : Shared} {choice : Choice} {c c' : Conn}

private theorem within_some {α : Type} {deadline : Option Instant} {now : Instant} {poll : Poll α}
    {value : α} (passed : within deadline now poll = some (some value)) : poll = .ready value := by
  cases poll with
  | ready value' =>
    cases passed
    rfl
  | pending =>
    obtain ⟨-, same⟩ := Option.ite_none_right_eq_some.mp passed
    cases same

/-- The global cap. -/
private theorem step_of_acquiring {peer : SocketAddr} {stream : Bytes} {cfg : GateConfig}
    {task : GuardTask}
    (moved : advanceFront s choice (.acquiring peer stream cfg task) = some (s', c')) :
    Step toLowercase s choice (.acquiring peer stream cfg task) s' c' := by
  cases task with
  | acquire =>
    simp only [advanceFront, GuardTask.advance] at moved
    split at moved
    next off =>
      cases moved
      exact .uncapped peer stream cfg off
    next =>
      cases moved
      exact .count peer stream cfg
  | compare count =>
    cases moved
    split
    · exact .exceeds peer stream cfg count
    next room => exact .fits peer stream cfg count (Int.not_lt.mp room)
  | undo =>
    cases moved
    exact .undo peer stream cfg
  | rejected =>
    cases moved
    exact .reject peer stream cfg
  | guard global =>
    cases moved
    exact .enter peer stream cfg global
  | dropped => cases moved

/-- The PROXY header, where one is expected. -/
private theorem step_of_readingHeader {o : Opened} {deadline : Option Instant}
    (moved : advanceFront s choice (.readingHeader o deadline) = some (s', c')) :
    Step toLowercase s choice (.readingHeader o deadline) s' c' := by
  simp only [advanceFront] at moved
  split at moved
  next expected =>
    generalize read : readProxyProtocolHeader o.stream choice.arrivals = answer at moved
    obtain ⟨header, stream, left⟩ := answer
    obtain ⟨header', passed, same⟩ := Option.map_eq_some_iff.mp moved
    cases same
    split
    next addr =>
      obtain rfl := within_some passed
      exact .header o deadline (some addr) stream left expected read
    next =>
      obtain rfl := within_some passed
      exact .header o deadline none stream left expected read
    · exact .noHeader o deadline expected
    · exact .noHeader o deadline expected
  next unexpected =>
    cases moved
    exact .direct o deadline (Bool.eq_false_iff.mpr unexpected)

private theorem step_of_advanceFront (moved : advanceFront s choice c = some (s', c')) :
    Step toLowercase s choice c s' c' := by
  cases c with
  | accepted peer stream =>
    cases moved
    exact .accept peer stream
  | checkingBan peer stream cfg =>
    simp only [advanceFront] at moved
    split at moved
    next asked =>
      rw [Bool.and_eq_true, Bool.not_eq_true'] at asked
      cases moved
      split
      next banned => exact .turnAway peer stream cfg banned
      next free => exact .pass peer stream cfg asked.1 (Bool.eq_false_iff.mpr free)
    next unasked =>
      cases moved
      refine .skipBan peer stream cfg ?_
      cases behind : cfg.proxyProtocol with
      | true => exact .inl rfl
      | false => exact .inr (by simpa [behind] using unasked)
  | acquiring peer stream cfg task => exact step_of_acquiring moved
  | limitingRate o =>
    simp only [advanceFront] at moved
    split at moved
    · cases moved
      split
      · exact .paced o _
      · exact .throttle o _
    · cases moved
      exact .paced o s.rates
  | readingHeader o deadline => exact step_of_readingHeader moved
  | checkingBanAgain k =>
    simp only [advanceFront] at moved
    split at moved
    · cases moved
      split
      next banned => exact .turnClientAway k banned
      next free => exact .passClient k (Bool.eq_false_iff.mpr free)
    next off =>
      cases moved
      exact .skipClient k (Bool.eq_false_iff.mpr off)
  | reserving k =>
    simp only [advanceFront] at moved
    generalize answered : PreLoginGuard.acquire s.preLogin (some (ipString k.addr))
      (UInt32.ofNat k.cfg.maxConnectionsPerIp.toInt.toNat) = answer at moved
    obtain ⟨preLogin, guard⟩ := answer
    cases moved
    cases guard with
    | none => exact .refuse k preLogin answered
    | some guard => exact .reserve k preLogin guard answered
  | _ => cases moved

private theorem step_of_advancePreLogin
    (moved : advancePreLogin toLowercase s choice c = some (s', c')) :
    Step toLowercase s choice c s' c' := by
  cases c with
  | readingHandshake a =>
    simp only [advancePreLogin] at moved
    generalize read : a.stream.readHandshake choice.arrivals = answer at moved
    obtain ⟨result, stream⟩ := answer
    obtain ⟨result', passed, same⟩ := Option.map_eq_some_iff.mp moved
    cases same
    split
    · exact .badHandshake a
    · exact .noRoute a
    · exact .badHandshake a
    next handshake =>
      obtain rfl := within_some passed
      split
      · exact .route a stream handshake _ _ read
      · exact .noRoute a
  | routing a handshake index route =>
    cases moved
    split
    next asked => exact .status a handshake index route asked
    next asked => exact .login a handshake index route asked
  | readingStatusRequest r =>
    simp only [advancePreLogin] at moved
    generalize read : r.stream.readFrame MAX_PACKET_BYTES choice.arrivals = answer at moved
    obtain ⟨result, stream⟩ := answer
    obtain ⟨result', passed, same⟩ := Option.map_eq_some_iff.mp moved
    cases same
    split
    next frame =>
      obtain rfl := within_some passed
      split
      next asks => exact .request r stream frame read asks
      next => exact .noRequest r
    · exact .noRequest r
    · exact .noRequest r
  | answeringStatus r request =>
    cases moved
    exact .answer r request
  | checkingLimit r =>
    cases moved
    split
    · exact .spent r
    · exact .unspent r
  | readingLoginStart r =>
    simp only [advancePreLogin] at moved
    generalize read : r.stream.readFrame MAX_PACKET_BYTES choice.arrivals = answer at moved
    obtain ⟨result, stream⟩ := answer
    obtain ⟨result', passed, same⟩ := Option.map_eq_some_iff.mp moved
    cases same
    split
    · exact .late r
    · exact .badLogin r
    next frame =>
      obtain rfl := within_some passed
      exact .loginStart r stream frame read
  | provenReal r player =>
    cases moved
    exact .prove r player
  | _ => cases moved

private theorem step_of_advanceLogin (moved : advanceLogin s choice c = some (s', c')) :
    Step toLowercase s choice c s' c' := by
  cases c with
  | resolving l =>
    cases moved
    split
    · exact .unresolved l
    · exact .resolve l _
  | dialing l backends =>
    cases backends with
    | nil =>
      cases moved
      exact .unreachable l
    | cons backend rest =>
      cases moved
      split
      · exact .connect l backend rest
      · exact .failOver l backend rest
  | counting l backend =>
    cases moved
    exact .opened l backend
  | timing l backend =>
    cases moved
    exact .time l backend
  | registeringVoice l backend =>
    simp only [advanceLogin] at moved
    split at moved
    · cases moved
      exact .noVoice l backend
    · split at moved
      · cases moved
        exact .panicVoice l backend
      · split at moved
        · cases moved
          exact .noVoice l backend
        · cases moved
          exact .registerVoice l backend _
  | sniffing l backend voice =>
    simp only [advanceLogin] at moved
    split at moved
    · cases moved
      exact .nameless l backend voice
    · cases moved
      exact .list l backend voice _
  | relaying v =>
    cases moved
    split
    · exact .panicRelay v
    · exact .relayed v
  | discounting v =>
    cases moved
    exact .discount v
  | unlisting v =>
    simp only [advanceLogin] at moved
    split at moved
    next nobody =>
      cases moved
      exact .unlisted v nobody
    next session own =>
      cases moved
      exact .unlist v session own
  | recording v session own =>
    cases moved
    exact .record v session own
  | unregisteringVoice v =>
    cases moved
    split
    next voice => exact .silence v voice
    next voice => exact .silent v (Bool.eq_false_iff.mpr voice)
  | _ => cases moved

private theorem step_of_advanceEnd (moved : advanceEnd s choice c = some (s', c')) :
    Step toLowercase s choice c s' c' := by
  cases c with
  | offending cfg addr global guard =>
    cases moved
    exact .violate cfg addr global guard
  | dropping global guard ending =>
    cases moved
    cases guard with
    | none => exact .drop global ending
    | some guard => exact .release global guard ending
  | closing global ending =>
    obtain ⟨released⟩ := global
    cases moved
    cases released with
    | true => exact .uncounted ending
    | false => exact .leaves ending
  | _ => cases moved

/-- A connection moves by one of the rules. -/
theorem step_of_advance (moved : c.advance toLowercase s choice = some (s', c')) :
    Step toLowercase s choice c s' c' := by
  rw [advance, Option.orElse_eq_some, Option.orElse_eq_some, Option.orElse_eq_some] at moved
  rcases moved with front | ⟨-, preLogin | ⟨-, login | ⟨-, leaving⟩⟩⟩
  · exact step_of_advanceFront front
  · exact step_of_advancePreLogin preLogin
  · exact step_of_advanceLogin login
  · exact step_of_advanceEnd leaving

end Conn

end MCGate.Server
