import MCGate.Net.Disconnect

/-!
# A login from the first byte to the relay

A connection passes through phases that share two buffered streams: the handshake and
the Login Start are read as frames, a backend is dialled and given both, its login
answer is sniffed, and then the relay takes over. Reads are cancelled, sniffs end early
and dials fail over on the way. None of this loses, repeats or reorders a byte in either
direction: `Conserves` is kept by every step.
-/
namespace MCGate

/-- What of a route decides what a backend is sent first. -/
structure Route where
  proxyProtocol : Bool
  modifyVirtualHost : Bool
  deriving DecidableEq, Repr

/-- `should_forward_proxy_protocol` -/
def shouldForwardProxyProtocol (clientAddr : SocketAddr) : Bool :=
  clientAddr.port ≠ 0 && !clientAddr.ip.isUnspecified && !clientAddr.ip.isLoopback

/-- `dial_backend` on a connection that was established, with how its writes end. -/
def dialBackend (route : Route) (addr : SocketAddr) (handshake : Handshake)
    (clientAddr : SocketAddr) (headerWritten handshakeWritten : Written) : Option Writer :=
  let (ok, backend) :=
    if route.proxyProtocol ∧ shouldForwardProxyProtocol clientAddr then
      Writer.new.writeAll (encodeProxyProtocolHeader clientAddr addr) headerWritten
    else (true, Writer.new)
  if ¬ ok then none
  else
    let frame :=
      if route.modifyVirtualHost then
        encodeHandshake handshake.protocolVersion (displayIp addr.ip) handshake.port 2
      else handshake.rawFrame
    let (ok, backend) := backend.writeAll frame handshakeWritten
    if ok then some backend else none

/-- Where a connection stands. `origin` is the stream of the backend it was given to. -/
inductive Connection where
  | handshaking (client : BufferedStream)
  | awaitingLogin (client : BufferedStream) (handshake : Handshake)
  | dialing (client : BufferedStream) (handshake : Handshake) (loginStart : Bytes)
  | sniffing (origin : Bytes) (handshake : Handshake) (loginStart : Bytes) (sniff : Sniff)
  | relaying (origin : Bytes) (handshake : Handshake) (loginStart : Bytes) (relay : Relay)
  | closed
  deriving DecidableEq, Repr

inductive ConnectionEvent where
  | readHandshake (arrivals : List Arrival)
  | readLoginStart (arrivals : List Arrival)
  /-- The login deadline passes, no route matches, the route's limit is reached, its
  backends do not resolve, or none is left: the connection is closed, some with a kick. -/
  | refuse
  /-- A backend cannot be reached, or it is and sends `stream` over the connection. -/
  | connectFailed
  | connected (addr : SocketAddr) (stream : Bytes) (header handshake loginStart : Written)
  | sniff (e : SniffEvent)
  | startRelay
  | relay (e : RelayEvent)
  deriving DecidableEq, Repr

namespace Connection

def step (zlib : Zlib) (toLowercase : Text → Text) (route : Route) (clientAddr : SocketAddr) :
    Connection → ConnectionEvent → Option Connection
  | .handshaking client, .readHandshake arrivals =>
    match client.readHandshake arrivals with
    | (.pending, client) => some (.handshaking client)
    | (.ready (.error _), _) => some .closed
    | (.ready (.ok handshake), client) =>
      -- a status request is answered elsewhere
      if handshake.nextState = 1 then some .closed else some (.awaitingLogin client handshake)
  | .awaitingLogin client handshake, .readLoginStart arrivals =>
    match client.readFrame MAX_PACKET_BYTES arrivals with
    | (.pending, client) => some (.awaitingLogin client handshake)
    | (.ready (.error _), _) => some .closed
    | (.ready (.ok loginStart), client) => some (.dialing client handshake loginStart)
  | .handshaking _, .refuse | .awaitingLogin _ _, .refuse | .dialing _ _ _, .refuse => some .closed
  | .dialing client handshake loginStart, .connectFailed =>
    some (.dialing client handshake loginStart)
  | .dialing client handshake loginStart, .connected addr stream header handshook forwarded =>
    match dialBackend route addr handshake clientAddr header handshook with
    | none => some (.dialing client handshake loginStart)
    | some backend =>
      let (ok, backend) := backend.writeAll loginStart forwarded
      -- the next backend gets a connection of its own
      if ok then
        some (.sniffing stream handshake loginStart
          (Sniff.start ⟨client, .new stream, .new, backend⟩))
      else some (.dialing client handshake loginStart)
  | .sniffing origin handshake loginStart sniff, .sniff e =>
    (sniff.step zlib e).map fun sniff => .sniffing origin handshake loginStart sniff
  | .sniffing origin handshake loginStart sniff, .startRelay =>
    sniff.returned.map fun result =>
      let session := storeSession (parseLoginStart loginStart) handshake.host
        handshake.protocolVersion result
      .relaying origin handshake loginStart (Relay.start sniff.splice session)
  | .relaying origin handshake loginStart relay, .relay e =>
    (relay.step zlib toLowercase e).map fun relay =>
      .relaying origin handshake loginStart relay
  | _, _ => none

/-- What the two writers were handed, and what their sockets took of it, are fronts of
the peers' streams; the backend's begins with the two frames. -/
structure InOrder (clientStream origin : Bytes) (handshake : Handshake) (loginStart : Bytes)
    (s : Splice) : Prop where
  up : s.toBackend.handed <+: clientStream
  upDelivered : s.toBackend.delivered <+: clientStream
  frames : handshake.rawFrame ++ loginStart <+: s.toBackend.handed
  down : s.toClient.handed <+: origin
  downDelivered : s.toClient.delivered <+: origin

def StreamFidelity (clientStream : Bytes) : Connection → Prop
  | .sniffing origin handshake loginStart sniff =>
    InOrder clientStream origin handshake loginStart sniff.splice
  | .relaying origin handshake loginStart relay =>
    InOrder clientStream origin handshake loginStart relay.splice
  | _ => True

/-- In every phase the frames read, what was handed on and what can still be read are
the client's stream. -/
def Conserves (clientStream : Bytes) : Connection → Prop
  | .handshaking client => client.remainder = clientStream
  | .awaitingLogin client handshake => handshake.rawFrame ++ client.remainder = clientStream
  | .dialing client handshake loginStart =>
    handshake.rawFrame ++ loginStart ++ client.remainder = clientStream
  | .sniffing origin handshake loginStart sniff =>
    sniff.splice.Faithful clientStream origin ∧
      handshake.rawFrame ++ loginStart <+: sniff.splice.toBackend.handed
  | .relaying origin handshake loginStart relay =>
    relay.splice.Faithful clientStream origin ∧
      handshake.rawFrame ++ loginStart <+: relay.splice.toBackend.handed
  | .closed => True

variable {zlib : Zlib} {toLowercase : Text → Text} {route : Route} {clientAddr : SocketAddr}

/-- Without a header and without a rewritten host the backend is sent the raw frame. -/
theorem dialBackend_handed (noHeader : route.proxyProtocol = false)
    (noRewrite : route.modifyVirtualHost = false) {addr : SocketAddr} {handshake : Handshake}
    {header handshook : Written} {backend : Writer}
    (dialed : dialBackend route addr handshake clientAddr header handshook = some backend) :
    backend.handed = handshake.rawFrame := by
  simp only [dialBackend, noHeader, noRewrite, Bool.false_eq_true, false_and, if_false,
    not_true] at dialed
  split at dialed
  · rw [← Option.some.inj dialed, Writer.handed_writeAll, Writer.handed_new, List.nil_append]
  · cases dialed

private theorem conserves_step (noHeader : route.proxyProtocol = false)
    (noRewrite : route.modifyVirtualHost = false) {clientStream : Bytes} {c c' : Connection}
    {e : ConnectionEvent} (conserves : c.Conserves clientStream)
    (stepped : c.step zlib toLowercase route clientAddr e = some c') :
    c'.Conserves clientStream := by
  revert stepped
  fun_cases step zlib toLowercase route clientAddr c e with
  | case1 client arrivals client' read =>
    intro stepped
    -- a dropped read keeps what it has buffered
    have kept := client.readHandshake_remainder arrivals
    rw [read] at kept
    cases stepped
    exact kept.trans conserves
  | case2 | case3 | case6 | case8 | case9 | case10 =>
    -- the connection is closed
    intro stepped
    cases stepped
    trivial
  | case4 client arrivals handshake client' read =>
    intro stepped
    have kept := client.readHandshake_remainder arrivals
    rw [read] at kept
    cases stepped
    exact kept.trans conserves
  | case5 client handshake arrivals client' read =>
    intro stepped
    have kept := client.readFrame_remainder MAX_PACKET_BYTES arrivals
    rw [read] at kept
    cases stepped
    exact (congrArg (handshake.rawFrame ++ ·) kept).trans conserves
  | case7 client handshake arrivals loginStart client' read =>
    intro stepped
    have kept := client.readFrame_remainder MAX_PACKET_BYTES arrivals
    rw [read] at kept
    cases stepped
    show handshake.rawFrame ++ loginStart ++ client'.remainder = clientStream
    rw [List.append_assoc]
    exact (congrArg (handshake.rawFrame ++ ·) kept).trans conserves
  | case11 | case12 | case14 =>
    -- this backend is given up, the next one is dialled with the same frames
    intro stepped
    cases stepped
    exact conserves
  | case13 client handshake loginStart addr stream header handshook forwarded backend dialed
      backend' wrote =>
    intro stepped
    cases stepped
    -- the two frames are all the chosen backend was handed so far
    have handed := Writer.handed_writeAll backend loginStart forwarded
    rw [wrote, dialBackend_handed noHeader noRewrite dialed] at handed
    refine ⟨⟨?_, rfl⟩, ?_⟩
    · show backend'.handed ++ client.remainder = clientStream
      rw [handed]
      exact conserves
    · show handshake.rawFrame ++ loginStart <+: backend'.handed
      exact ⟨[], by rw [List.append_nil, handed]⟩
  | case15 origin handshake loginStart sniff e =>
    intro stepped
    obtain ⟨sniff', sniffed, rfl⟩ := Option.map_eq_some_iff.mp stepped
    have moves := Sniff.step_moves sniffed
    exact ⟨moves.faithful conserves.1, conserves.2.trans moves.handed_prefix⟩
  | case16 origin handshake loginStart sniff =>
    intro stepped
    obtain ⟨result, -, rfl⟩ := Option.map_eq_some_iff.mp stepped
    exact conserves
  | case17 origin handshake loginStart relay e =>
    intro stepped
    obtain ⟨relay', relayed, rfl⟩ := Option.map_eq_some_iff.mp stepped
    have moves := Relay.step_moves relayed
    exact ⟨moves.faithful conserves.1, conserves.2.trans moves.handed_prefix⟩
  | case18 =>
    intro stepped
    cases stepped

private theorem inOrder_of_faithful {clientStream origin loginStart : Bytes} {handshake : Handshake}
    {s : Splice} (faithful : s.Faithful clientStream origin)
    (frames : handshake.rawFrame ++ loginStart <+: s.toBackend.handed) :
    InOrder clientStream origin handshake loginStart s := by
  have up : s.toBackend.handed <+: clientStream := ⟨_, faithful.up⟩
  have down : s.toClient.handed <+: origin := ⟨_, faithful.down⟩
  exact ⟨up, s.toBackend.delivered_prefix.trans up, frames, down,
    s.toClient.delivered_prefix.trans down⟩

/-- On a route that neither sends a PROXY header nor rewrites the handshake, whatever
happens to the connection: the backend that was chosen is sent a front of the client's
stream, from the first byte of the handshake on, and the client a front of that
backend's stream. -/
theorem login_stream_fidelity (zlib : Zlib) (toLowercase : Text → Text) (route : Route)
    (noHeader : route.proxyProtocol = false) (noRewrite : route.modifyVirtualHost = false)
    (clientAddr : SocketAddr) (clientStream : Bytes) (events : List ConnectionEvent)
    (c : Connection)
    (ran : Machine.run (step zlib toLowercase route clientAddr)
      (.handshaking (.new clientStream)) events = some c) :
    c.StreamFidelity clientStream := by
  have initial : Conserves clientStream (.handshaking (.new clientStream)) := rfl
  have conserves : c.Conserves clientStream :=
    Machine.run_invariant (Conserves clientStream)
      (fun _ _ _ => conserves_step noHeader noRewrite) initial ran
  cases c with
  | sniffing origin handshake loginStart sniff =>
    exact inOrder_of_faithful conserves.1 conserves.2
  | relaying origin handshake loginStart relay =>
    exact inOrder_of_faithful conserves.1 conserves.2
  | _ => trivial

/-- A handshake, a Login Start and one more byte. -/
def clientBytes : Bytes :=
  [0x06, 0x00, 0x00, 0x00, 0x63, 0xDD, 0x02, 0x03, 0x00, 0x01, 0x41, 0x05]

/-- The first backend breaks off, the second is slow: the sniff times out inside its
first frame, whose bytes the relay then forwards. -/
def slowLogin : List ConnectionEvent :=
  [.readHandshake [.ready 5], .readHandshake [.ready 100], .readLoginStart [], .connectFailed,
    .connected ⟨.v4 ⟨10, 0, 0, 1⟩, 25565⟩ [] .all (.failed 3) .all,
    .connected ⟨.v4 ⟨10, 0, 0, 2⟩, 25565⟩ [0x01, 0x02, 0x01, 0x25] .all .all .all,
    .sniff (.backendFrame [.ready 1] .all), .sniff (.clientRead (.ready 1) .all), .sniff .timeout,
    .startRelay, .relay (.poll .client none none), .relay (.wrote 1),
    .relay (.poll .backend none (some (.ready 9))), .relay (.wrote 2)]

/-- What the backend's and the client's socket have taken from the relay. -/
def relayed : Connection → Option (Bytes × Bytes)
  | .relaying _ _ _ relay =>
    some (relay.splice.toBackend.delivered, relay.splice.toClient.delivered)
  | _ => none

theorem slow_login_in_order :
    ∃ c, Machine.run (step Sniff.uncompressed id ⟨false, false⟩ ⟨.v4 ⟨10, 9, 8, 7⟩, 50000⟩)
        (.handshaking (.new clientBytes)) slowLogin = some c ∧
      c.relayed = some (clientBytes, [0x01, 0x02, 0x01]) ∧ c.StreamFidelity clientBytes := by
  have taken : (Machine.run (step Sniff.uncompressed id ⟨false, false⟩
      ⟨.v4 ⟨10, 9, 8, 7⟩, 50000⟩) (.handshaking (.new clientBytes)) slowLogin).bind relayed =
      some (clientBytes, [0x01, 0x02, 0x01]) := by decide
  obtain ⟨c, ran, written⟩ := Option.bind_eq_some_iff.mp taken
  exact ⟨c, ran, written, login_stream_fidelity _ _ _ rfl rfl _ _ _ c ran⟩

end Connection

end MCGate
