import MCGate.Net.LoginStream
import MCGate.Net.ProxyHeader
import MCGate.Net.ServerReads
import MCGate.Protocol.HandshakeRoundTrip

/-!
# A gate behind a gate

The backend of a route can be another gate. What the outer one writes over a login is then what
the inner one reads: a PROXY header, if the route sends one for this client, a handshake, the
Login Start, and whatever the client sends after it. The inner gate knows the client only from
these bytes. If it expects a header exactly where one is sent, it takes the login for what the
outer one took it for; otherwise it never gets as far as a handshake.
-/
namespace MCGate

open Reader ProxyProtocol BufferedStream

/-! ### What the outer gate writes -/

/-- A dial over the route begins with a PROXY header. -/
def sendsHeader (route : Route) (clientAddr : SocketAddr) : Bool :=
  route.proxyProtocol && shouldForwardProxyProtocol clientAddr

def dialHeader (route : Route) (addr clientAddr : SocketAddr) : Bytes :=
  if sendsHeader route clientAddr then encodeProxyProtocolHeader clientAddr addr else []

/-- What a dial has written before the Login Start. -/
def preamble (route : Route) (addr : SocketAddr) (handshake : Handshake)
    (clientAddr : SocketAddr) : Bytes :=
  dialHeader route addr clientAddr ++
    if route.modifyVirtualHost then
      encodeHandshake handshake.protocolVersion (displayIp addr.ip) handshake.port 2
    else handshake.rawFrame

/-- The handshake that is written for one that was read. -/
def forwardedHandshake (route : Route) (addr : SocketAddr) (handshake : Handshake) : Handshake :=
  if route.modifyVirtualHost then
    ⟨handshake.protocolVersion, displayIp addr.ip, handshake.port, 2,
      encodeHandshake handshake.protocolVersion (displayIp addr.ip) handshake.port 2⟩
  else handshake

theorem sendsHeader_iff {route : Route} {clientAddr : SocketAddr} :
    (route.proxyProtocol = true ∧ shouldForwardProxyProtocol clientAddr = true) ↔
      sendsHeader route clientAddr = true := by
  rw [sendsHeader, Bool.and_eq_true]

private theorem dialBackend_preamble {route : Route} {addr clientAddr : SocketAddr}
    {handshake : Handshake} {header handshook : Written} {backend : Writer}
    (dialed : dialBackend route addr handshake clientAddr header handshook = some backend) :
    backend.handed = preamble route addr handshake clientAddr := by
  simp only [dialBackend, sendsHeader_iff] at dialed
  generalize opening : (if sendsHeader route clientAddr = true then
    Writer.new.writeAll (encodeProxyProtocolHeader clientAddr addr) header
    else (true, Writer.new)) = opened at dialed
  have handed : opened.2.handed = dialHeader route addr clientAddr := by
    rw [← opening, dialHeader]
    split
    · rw [Writer.handed_writeAll, Writer.handed_new, List.nil_append]
    · exact Writer.handed_new
  obtain ⟨ok, front⟩ := opened
  dsimp only at dialed handed
  split at dialed
  · cases dialed
  · obtain ⟨-, written⟩ := Option.ite_none_right_eq_some.mp dialed
    rw [← Option.some.inj written, Writer.handed_writeAll, handed, preamble]

/-! ### What the bytes say -/

/-- The text of an address does not end in a dot. -/
theorem getLast?_displayIp (ip : IpAddr) : (displayIp ip).getLast? ≠ some '.' := by
  have noPoint : ∀ d < 16, '.' ≠ Nat.digitChar d := by decide
  have v4 (ip : Ipv4Addr) : (displayIpv4 ip).getLast? ≠ some '.' := by
    have last := notMem_decimal noPoint ip.d.toNat
    have some : Nat.toDigits 10 ip.d.toNat ≠ [] := Nat.toDigits_ne_nil
    have back : ['.'] ++ Nat.toDigits 10 ip.d.toNat <:+ displayIpv4 ip := List.suffix_append _ _
    intro dot
    obtain ⟨front, whole⟩ := back
    rw [← whole, ← List.append_assoc, List.getLast?_append_of_ne_nil _ some] at dot
    exact last (List.mem_of_getLast? dot)
  cases ip with
  | v4 ip => exact v4 ip
  | v6 ip =>
    intro dot
    by_cases mapped : ip.Mapped
    · rw [displayIp, Ipv6Addr.displayIpv6_of_mapped mapped, List.getLast?_append_of_ne_nil] at dot
      · exact v4 _ dot
      · simp [displayIpv4]
    · exact notMem_displayIpv6 noPoint (by decide) mapped (List.mem_of_getLast? dot)

/-- An address is a host that a handshake carries unchanged. -/
theorem handshakeHost_displayIp (ip : IpAddr) :
    handshakeHost (asBytes (displayIp ip)) = displayIp ip :=
  handshakeHost_asBytes (notMem_displayIp (by decide) (by decide) (by decide) ip)
    (getLast?_displayIp ip)

/-- A header is long enough to be read before anything of what follows. -/
theorem header_long (sourceAddr destAddr : SocketAddr) :
    16 ≤ (encodeProxyProtocolHeader sourceAddr destAddr).length := by
  have proto : (if sourceAddr.ip.isIpv6 then "TCP6" else "TCP4").toList.length = 4 := by
    split <;> rfl
  have word : "PROXY ".toList.length = 6 := rfl
  have line := congrArg List.length (asBytes_headerLine sourceAddr destAddr)
  rw [List.length_map] at line
  have fields : 14 ≤ (headerLine sourceAddr destAddr).length := by
    simp only [headerLine, headerFields, List.intercalate_cons_cons, List.intercalate_singleton,
      List.length_append, List.length_singleton]
    have five : "PROXY".toList.length = 5 := rfl
    rw [apply_ite String.toList] at proto
    omega
  rw [encodeProxyProtocolHeader_eq, List.length_append, line]
  exact Nat.add_le_add_right fields 2

section Preamble

variable {route : Route} {addr clientAddr peer : SocketAddr} {handshake : Handshake}
  {clientStream loginStart rest : Bytes}

/-- Whom a gate takes the client for that a header is sent of, or not. -/
def knownAs (route : Route) (clientAddr peer : SocketAddr) : SocketAddr :=
  if sendsHeader route clientAddr then clientAddr else peer

theorem decodeSource_header (following : Bytes) :
    (decodeSource (sendsHeader route clientAddr) peer).run
        (dialHeader route addr clientAddr ++ following) =
      some (knownAs route clientAddr peer, following) := by
  unfold knownAs dialHeader
  cases sendsHeader route clientAddr with
  | false => exact decodeSource_false.mpr ⟨rfl, rfl⟩
  | true =>
    have read := (proxyHeader_roundTrip clientAddr addr following).1
    have long := header_long clientAddr addr
    apply decodeSource_true.mpr
    refine ⟨some clientAddr, _, read, ?_, rfl, ?_⟩
    · rw [if_pos rfl, List.length_append]
      omega
    · rw [if_pos rfl, Nat.max_eq_right long, List.drop_append_length]

/-- The two frames are what the stream starts with. -/
theorem frames_split
    (frames : decodeFrames.run clientStream = some ((handshake, loginStart), rest)) :
    clientStream = handshake.rawFrame ++ (loginStart ++ rest) ∧
      (decodeFrame MAX_PACKET_BYTES).run (loginStart ++ rest) = some (loginStart, rest) := by
  obtain ⟨middle, hello, login⟩ := decodeFrames_eq_some.mp frames
  obtain ⟨parsed, rfl⟩ := decodeHandshake_eq_some.mp hello
  obtain ⟨total, -, front, back⟩ := decodeFrame_eq_some.mp login
  have whole : loginStart ++ rest = clientStream.drop handshake.rawFrame.length := by
    rw [front, back, List.take_append_drop]
  rw [← whole] at login
  refine ⟨?_, login⟩
  rw [whole]
  conv_rhs => rw [rawFrame_eq_take parsed]
  rw [List.length_take, Nat.min_eq_left (rawFrame_length_le parsed), List.take_append_drop]

private theorem decodeFrames_forwarded
    (frames : decodeFrames.run clientStream = some ((handshake, loginStart), rest)) :
    decodeFrames.run ((if route.modifyVirtualHost then
        encodeHandshake handshake.protocolVersion (displayIp addr.ip) handshake.port 2
        else handshake.rawFrame) ++ (loginStart ++ rest)) =
      some ((forwardedHandshake route addr handshake, loginStart), rest) := by
  obtain ⟨split, login⟩ := frames_split frames
  unfold forwardedHandshake
  cases route.modifyVirtualHost with
  | false =>
    rw [if_neg Bool.false_ne_true, if_neg Bool.false_ne_true, ← split]
    exact frames
  | true =>
    rw [if_pos rfl, if_pos rfl]
    have short : (asBytes (displayIp addr.ip)).length ≤ 255 := by
      have ascii : asBytes (displayIp addr.ip) =
          (displayIp addr.ip).map fun c => UInt8.ofNat c.toNat :=
        asBytes_ascii fun _ member => (plain_of_mem_displayIp member).1
      have few := length_displayIp addr.ip
      rw [ascii, List.length_map]
      omega
    have parsed := @tryParse_encodeHandshake handshake.protocolVersion 2 (displayIp addr.ip)
      handshake.port short (loginStart ++ rest)
    rw [handshakeHost_displayIp] at parsed
    apply decodeFrames_eq_some.mpr
    refine ⟨loginStart ++ rest, decodeHandshake_eq_some.mpr ⟨parsed, ?_⟩, login⟩
    rw [List.drop_append_length]

/-- What a gate that expects a header where one is sent is told by a dial. -/
theorem decodeLogin_preamble
    (frames : decodeFrames.run clientStream = some ((handshake, loginStart), rest)) :
    (decodeLogin (sendsHeader route clientAddr) peer).run
        (preamble route addr handshake clientAddr ++ (loginStart ++ rest)) =
      some ((⟨knownAs route clientAddr peer, forwardedHandshake route addr handshake⟩, loginStart),
        rest) := by
  rw [preamble, List.append_assoc]
  apply decodeLogin_iff.mpr
  exact ⟨_, decodeSource_header _, decodeFrames_forwarded frames⟩

end Preamble

/-! ### The outer gate -/

/-- The backend that is tried. -/
def ConnectionEvent.backend : ConnectionEvent → Option SocketAddr
  | .connected addr _ _ _ _ => some addr
  | _ => none

/-- The socket is one that the preamble and the Login Start were written to, followed by what
the client sent after them. -/
def WritesTo (route : Route) (clientAddr : SocketAddr) (backends : List SocketAddr)
    (clientStream : Bytes) (handshake : Handshake) (loginStart : Bytes) (s : Splice) : Prop :=
  ∃ addr ∈ backends, ∃ rest, decodeFrames.run clientStream = some ((handshake, loginStart), rest) ∧
    s.toBackend.handed ++ s.client.remainder =
      preamble route addr handshake clientAddr ++ (loginStart ++ rest)

namespace Connection

/-- A login that was given to a backend. -/
def spliced : Connection → Option (Handshake × Bytes × Splice)
  | .sniffing _ handshake loginStart sniff => some (handshake, loginStart, sniff.splice)
  | .relaying _ handshake loginStart relay => some (handshake, loginStart, relay.splice)
  | _ => none

/-- What has been read of the client's stream, and what has been made of it. -/
def Follows (route : Route) (clientAddr : SocketAddr) (backends : List SocketAddr)
    (clientStream : Bytes) : Connection → Prop
  | .handshaking client => client.remainder = clientStream
  | .awaitingLogin client handshake =>
    decodeHandshake.run clientStream = some (handshake, client.remainder)
  | .dialing client handshake loginStart =>
    decodeFrames.run clientStream = some ((handshake, loginStart), client.remainder)
  | .sniffing _ handshake loginStart sniff =>
    WritesTo route clientAddr backends clientStream handshake loginStart sniff.splice
  | .relaying _ handshake loginStart relay =>
    WritesTo route clientAddr backends clientStream handshake loginStart relay.splice
  | .closed => True

variable {zlib : Zlib} {outerLowercase : Text → Text} {route : Route} {clientAddr : SocketAddr}
  {backends : List SocketAddr} {clientStream : Bytes} {c c' : Connection} {e : ConnectionEvent}

private theorem writesTo_moves {handshake : Handshake} {loginStart : Bytes} {s s' : Splice}
    (writes : WritesTo route clientAddr backends clientStream handshake loginStart s)
    (moves : s.Moves s') :
    WritesTo route clientAddr backends clientStream handshake loginStart s' := by
  obtain ⟨addr, tried, rest, frames, all⟩ := writes
  obtain ⟨out, handed, read⟩ := moves.up
  refine ⟨addr, tried, rest, frames, ?_⟩
  rw [handed, List.append_assoc, read]
  exact all

private theorem follows_step (follows : c.Follows route clientAddr backends clientStream)
    (tried : ∀ addr ∈ e.backend, addr ∈ backends)
    (stepped : c.step zlib outerLowercase route clientAddr e = some c') :
    c'.Follows route clientAddr backends clientStream := by
  revert stepped
  fun_cases step zlib outerLowercase route clientAddr c e with
  | case1 client arrivals client' read =>
    intro stepped
    have kept := client.readHandshake_remainder arrivals
    rw [read] at kept
    cases stepped
    exact kept.trans follows
  | case2 | case3 | case6 | case8 | case9 | case10 =>
    intro stepped
    cases stepped
    trivial
  | case4 client arrivals handshake client' read =>
    intro stepped
    have decoded := readHandshake_decodes read
    cases stepped
    rwa [show client.remainder = clientStream from follows] at decoded
  | case5 client handshake arrivals client' read =>
    intro stepped
    have kept := client.readFrame_remainder MAX_PACKET_BYTES arrivals
    rw [read] at kept
    cases stepped
    have same : client'.remainder = client.remainder := kept
    rw [Follows, same]
    exact follows
  | case7 client handshake arrivals loginStart client' read =>
    intro stepped
    have decoded := readFrame_decodes read
    cases stepped
    exact decodeFrames_eq_some.mpr ⟨_, follows, decoded⟩
  | case11 | case12 | case14 =>
    -- the next backend is given the same frames
    intro stepped
    cases stepped
    exact follows
  | case13 client handshake loginStart addr stream header handshook forwarded backend dialed
      backend' wrote =>
    intro stepped
    cases stepped
    have handed := Writer.handed_writeAll backend loginStart forwarded
    rw [wrote, dialBackend_preamble dialed] at handed
    refine ⟨addr, tried addr rfl, client.remainder, follows, ?_⟩
    show backend'.handed ++ client.remainder = _
    rw [handed, List.append_assoc]
  | case15 origin handshake loginStart sniff e =>
    intro stepped
    obtain ⟨sniff', sniffed, rfl⟩ := Option.map_eq_some_iff.mp stepped
    exact writesTo_moves follows (Sniff.step_moves sniffed)
  | case16 origin handshake loginStart sniff =>
    intro stepped
    obtain ⟨result, -, rfl⟩ := Option.map_eq_some_iff.mp stepped
    exact follows
  | case17 origin handshake loginStart relay e =>
    intro stepped
    obtain ⟨relay', relayed, rfl⟩ := Option.map_eq_some_iff.mp stepped
    exact writesTo_moves follows (Relay.step_moves relayed)
  | case18 =>
    intro stepped
    cases stepped

private theorem follows_run {events : List ConnectionEvent}
    (ran : Machine.run (step zlib outerLowercase route clientAddr)
      (.handshaking (.new clientStream)) events = some c) :
    c.Follows route clientAddr (events.filterMap ConnectionEvent.backend) clientStream := by
  have tried : Machine.Guarded (step zlib outerLowercase route clientAddr)
      (fun _ e => ∀ addr ∈ e.backend, addr ∈ events.filterMap ConnectionEvent.backend)
      (.handshaking (.new clientStream)) events := by
    apply Machine.guarded_of_forall
    intro e member addr tried
    exact List.mem_filterMap.mpr ⟨e, member, tried⟩
  have initial : Follows route clientAddr (events.filterMap ConnectionEvent.backend) clientStream
      (.handshaking (.new clientStream)) := rfl
  have always := Machine.always_of_guarded (fun _ _ _ => follows_step) initial tried
  exact Machine.always_iff_prefixes.mp always events [] c (List.append_nil _).symm ran

private theorem spliced_writes {handshake : Handshake} {loginStart : Bytes} {s : Splice}
    (follows : c.Follows route clientAddr backends clientStream)
    (at_backend : c.spliced = some (handshake, loginStart, s)) :
    WritesTo route clientAddr backends clientStream handshake loginStart s := by
  cases c with
  | sniffing origin handshake' loginStart' sniff =>
    cases at_backend
    exact follows
  | relaying origin handshake' loginStart' relay =>
    cases at_backend
    exact follows
  | _ => cases at_backend

end Connection

/-! ### The two gates -/

namespace Server

open Machine Threads

/-- Whether a header was expected, of a connection that has read its handshake. -/
def Conn.expects : Conn → Option Bool
  | .routing a _ _ _ => some a.cfg.proxyProtocol
  | .readingStatusRequest r | .answeringStatus r _ | .checkingLimit r | .readingLoginStart r
  | .provenReal r _ => some r.cfg.proxyProtocol
  | _ => none

/-- Whom the connection takes its client for. -/
def Conn.hello : Conn → Option Hello
  | .routing a handshake _ _ => some ⟨a.addr, handshake⟩
  | .readingStatusRequest r | .answeringStatus r _ | .checkingLimit r | .readingLoginStart r
  | .provenReal r _ => some ⟨r.addr, r.handshake⟩
  | .resolving l | .dialing l _ | .counting l _ | .timing l _ | .registeringVoice l _
  | .sniffing l _ _ => some ⟨l.addr, l.handshake⟩
  | .relaying v | .discounting v | .unlisting v | .recording v _ _ | .unregisteringVoice v =>
    some ⟨v.addr, v.handshake⟩
  | _ => none

/-- The player that is listed for it. -/
def Conn.player : Conn → Option (Option (Text × Option Uuid))
  | .provenReal _ player => some player
  | .resolving l | .dialing l _ | .counting l _ | .timing l _ | .registeringVoice l _
  | .sniffing l _ _ => some l.player
  | .relaying v | .discounting v | .unlisting v | .recording v _ _ | .unregisteringVoice v =>
    some v.player
  | _ => none

/-- As far as the connection knows its client, it is this one. -/
structure Conn.TakesFor (conn : Conn) (expects : Bool) (hello : Hello)
    (player : Option (Text × Option Uuid)) : Prop where
  expects : ∀ known ∈ conn.expects, known = expects
  hello : ∀ known ∈ conn.hello, known = hello
  player : ∀ known ∈ conn.player, known = player

variable {peer : SocketAddr} {stream front : Bytes} {expects : Bool} {hello : Hello}
  {loginStart rest : Bytes}

theorem LoggedIn.Reads.known {l : LoggedIn} (reads : l.Reads peer front)
    (isFront : front <+: stream)
    (decoded : (decodeLogin expects peer).run stream = some ((hello, loginStart), rest)) :
    ⟨l.addr, l.handshake⟩ = hello ∧ l.player = parseLoginStart loginStart := by
  obtain ⟨_, _, _, read, player⟩ := reads
  obtain ⟨-, same, rfl⟩ := decodeLogin_front isFront read decoded
  exact ⟨same, player⟩

/-- A connection takes its client for the one that the whole stream says, of which it may have
been sent a front only. -/
theorem Conn.Reads.takesFor {conn : Conn} (reads : conn.Reads peer front)
    (isFront : front <+: stream)
    (decoded : (decodeLogin expects peer).run stream = some ((hello, loginStart), rest)) :
    conn.TakesFor expects hello (parseLoginStart loginStart) := by
  obtain ⟨middle, helloRead, -⟩ := decodeLogin_eq_some.mp decoded
  cases conn with
  | accepted | checkingBan | acquiring | limitingRate | readingHeader | checkingBanAgain
  | reserving | readingHandshake | offending | dropping | closing | closed =>
    -- nothing is known yet, or any more
    constructor <;> rintro _ ⟨⟩
  | routing a handshake index route =>
    obtain ⟨same, known, -⟩ := decodeHello_front isFront reads helloRead
    constructor
    · rintro _ ⟨⟩
      exact same
    · rintro _ ⟨⟩
      exact known
    · rintro _ ⟨⟩
  | readingStatusRequest r | checkingLimit r | readingLoginStart r =>
    obtain ⟨same, known, -⟩ := decodeHello_front isFront reads helloRead
    constructor
    · rintro _ ⟨⟩
      exact same
    · rintro _ ⟨⟩
      exact known
    · rintro _ ⟨⟩
  | answeringStatus r request =>
    obtain ⟨read, -⟩ := reads
    obtain ⟨same, known, -⟩ := decodeLogin_front isFront read decoded
    constructor
    · rintro _ ⟨⟩
      exact same
    · rintro _ ⟨⟩
      exact known
    · rintro _ ⟨⟩
  | provenReal r player =>
    obtain ⟨_, read, player⟩ := reads
    obtain ⟨same, known, rfl⟩ := decodeLogin_front isFront read decoded
    constructor
    · rintro _ ⟨⟩
      exact same
    · rintro _ ⟨⟩
      exact known
    · rintro _ ⟨⟩
      exact player
  | resolving | dialing | counting | timing | registeringVoice | sniffing | relaying
  | discounting | unlisting | recording | unregisteringVoice =>
    obtain ⟨known, player⟩ := LoggedIn.Reads.known reads isFront decoded
    constructor
    · rintro _ ⟨⟩
    · rintro _ ⟨⟩
      exact known
    · rintro _ ⟨⟩
      exact player

/-- Whatever happens in the two gates, and in whatever chunks the bytes of the outer one arrive
at the inner one: the inner one takes the login for what the outer one took it for, with the
client's own address where a header is sent of it, with the handshake that the route makes of
the client's, and with the player of its Login Start. Where the inner gate does not expect what
is sent, the connection never gets as far as a route. -/
theorem gate_behind_gate {zlib : Zlib} {outerLowercase : Text → Text} {route : Route}
    {clientAddr : SocketAddr} {clientStream : Bytes} {events : List ConnectionEvent}
    {c : Connection} {handshake : Handshake} {loginStart : Bytes} {s : Splice}
    (ran : Machine.run (Connection.step zlib outerLowercase route clientAddr)
      (.handshaking (.new clientStream)) events = some c)
    (at_backend : c.spliced = some (handshake, loginStart, s))
    {toLowercase : Text → Text} {gate last : Gate} {i : Nat} {peer : SocketAddr}
    {innerEvents : List (Event Party Choice)} {conn : Conn}
    (accepted : gate.threads[i]? = some (.connection (.accepted peer s.toBackend.delivered)))
    (innerRan : run (Gate.step toLowercase) gate innerEvents = some last)
    (at_last : last.threads[i]? = some (.connection conn)) :
    ∃ addr ∈ events.filterMap ConnectionEvent.backend,
      conn.TakesFor (sendsHeader route clientAddr)
        ⟨knownAs route clientAddr peer, forwardedHandshake route addr handshake⟩
        (parseLoginStart loginStart) := by
  have writes := Connection.spliced_writes (Connection.follows_run ran) at_backend
  obtain ⟨addr, tried, rest, frames, all⟩ := writes
  refine ⟨addr, tried, ?_⟩
  have reads := run_reads accepted innerRan at_last
  have decoded := @decodeLogin_preamble route addr clientAddr peer _ _ _ _ frames
  rw [← all] at decoded
  apply reads.takesFor _ decoded
  exact s.toBackend.delivered_prefix.trans (List.prefix_append _ _)

/-- A login as Steve that asks for `play.example.com`. -/
def steveStream : Bytes :=
  encodeHandshake 767 "play.example.com".toList 25565 2 ++ encodeLoginStart "Steve".toList none

def steve : SocketAddr := ⟨.v4 ⟨203, 0, 113, 9⟩, 50000⟩

/-- It arrives in two chunks, and the first backend takes it. -/
def steveLogin : List ConnectionEvent :=
  [.readHandshake [.ready 5, .ready 100], .readLoginStart [],
    .connected ⟨.v4 ⟨10, 0, 0, 1⟩, 25565⟩ [] .all .all .all]

/-- The inner gate expects a header, and has a route for every host. -/
def inner : Config.GateConfig where
  proxyProtocol := true
  routes := [⟨[⟨['*'], ['*'], 1⟩], [], .sequential, 0, none, false, false, 0, { enabled := false },
    [], [], none⟩]

def outerAddr : SocketAddr := ⟨.v4 ⟨10, 9, 8, 7⟩, 1234⟩

def innerGate (stream : Bytes) : Gate :=
  ⟨Server.start inner {}, [.connection (.accepted outerAddr stream)]⟩

/-- Its connection reads all that there is. -/
def innerMoves : List (Event Party Choice) :=
  List.replicate 13 (.move 0 { now := 0, arrivals := List.replicate 200 (.ready 50) })

/-- The connection at the head of the pool, if it knows its client. -/
def knowing (gate : Gate) : Option Conn :=
  match (gate.threads[0]? : Option Party) with
  | some (.connection conn) => if conn.player.isSome then some conn else none
  | _ => none

/-- The inner gate knows Steve by his own address. -/
theorem gate_behind_gate_steve :
    ∃ last : Gate, ∃ conn, knowing last = some conn ∧
      ∃ addr ∈ steveLogin.filterMap ConnectionEvent.backend, ∃ handshake loginStart,
        conn.TakesFor true ⟨steve, forwardedHandshake forwarding addr handshake⟩
          (parseLoginStart loginStart) := by
  have known : (((Machine.run (Connection.step Sniff.uncompressed id forwarding steve)
      (.handshaking (.new steveStream)) steveLogin).bind fun c => c.spliced.bind
        fun (_, _, s) => (run (Gate.step id) (innerGate s.toBackend.delivered) innerMoves).bind
          knowing).isSome) := by decide +kernel
  obtain ⟨conn, known⟩ := Option.isSome_iff_exists.mp known
  obtain ⟨c, ran, known⟩ := Option.bind_eq_some_iff.mp known
  obtain ⟨⟨handshake, loginStart, s⟩, at_backend, known⟩ := Option.bind_eq_some_iff.mp known
  obtain ⟨last, innerRan, known⟩ := Option.bind_eq_some_iff.mp known
  refine ⟨last, conn, known, ?_⟩
  have at_last : last.threads[0]? = some (.connection conn) := by
    unfold knowing at known
    split at known
    next conn' there =>
      obtain ⟨-, same⟩ := Option.ite_none_right_eq_some.mp known
      rw [there, Option.some.inj same]
    · cases known
  have accepted : (innerGate s.toBackend.delivered).threads[0]? =
      some (.connection (.accepted outerAddr s.toBackend.delivered)) := rfl
  obtain ⟨addr, tried, takes⟩ := gate_behind_gate ran at_backend accepted innerRan at_last
  exact ⟨addr, tried, handshake, loginStart, takes⟩

end Server

end MCGate
