import MCGate.Net.GateBehindGate
import MCGate.Net.StatusAnswer

/-!
# A status request at a gate behind a gate

For a status the outer gate does not forward the handshake that it was sent but writes one of its
own, with the host as it has decoded it. Bytes that are not UTF-8 have grown in between. The inner
gate then knows the client, and the host and the version that it asks for, and reads the request
behind them, exactly where the host has at most 255 bytes now; otherwise it gets nowhere.
-/
namespace MCGate

open Reader ProxyProtocol BufferedStream

/-! ### What is written -/

/-- The handshake of a status dial, as it is read. -/
def statusHandshake (handshake : Handshake) : Handshake :=
  ⟨handshake.protocolVersion, handshake.host, handshake.port, 1,
    encodeHandshake handshake.protocolVersion handshake.host handshake.port 1⟩

/-- All that a status dial writes. -/
def statusDial (route : Route) (addr : SocketAddr) (handshake : Handshake)
    (clientAddr : SocketAddr) : Bytes :=
  dialHeader route addr clientAddr ++ ((statusHandshake handshake).rawFrame ++ statusRequest)

private theorem requestBackendStatus_sends {route : Route} {addr clientAddr : SocketAddr}
    {handshake : Handshake} {headerWritten handshakeWritten requestWritten : Written}
    {backend : Writer}
    (dialed : requestBackendStatus route addr handshake clientAddr headerWritten handshakeWritten
      requestWritten = some backend) :
    backend.handed = statusDial route addr handshake clientAddr := by
  simp only [requestBackendStatus, sendsHeader_iff] at dialed
  generalize opening : (if sendsHeader route clientAddr = true then
    (Writer.new.writeAll (encodeProxyProtocolHeader clientAddr addr) headerWritten).2
    else Writer.new) = opened at dialed
  have handed : opened.handed = dialHeader route addr clientAddr := by
    rw [← opening, dialHeader]
    split
    · rw [Writer.handed_writeAll, Writer.handed_new, List.nil_append]
    · exact Writer.handed_new
  split at dialed
  · cases dialed
  · obtain ⟨-, written⟩ := Option.ite_none_right_eq_some.mp dialed
    rw [← Option.some.inj written, Writer.handed_writeAll, Writer.handed_writeAll, handed,
      List.append_assoc]
    rfl

/-! ### What it says -/

section Dial

variable {route : Route} {addr clientAddr peer : SocketAddr} {handshake : Handshake} {buf : Bytes}

/-- The parser finds in a host that it has made what it was made of. -/
theorem handshakeHost_parsed (parsed : tryParse buf = .complete handshake) :
    handshakeHost (asBytes handshake.host) = handshake.host := by
  obtain ⟨f, -, rfl⟩ := tryParse_complete_iff.mp parsed
  exact handshakeHost_idem f.host

private theorem length_host_le (parsed : tryParse buf = .complete handshake) :
    (asBytes handshake.host).length ≤ 765 := by
  obtain ⟨f, -, rfl⟩ := tryParse_complete_iff.mp parsed
  have few := length_handshakeHost_le f.host
  have host := f.host_length_le
  exact Nat.le_trans few (by omega)

private theorem decodeLogin_statusDial (parsed : tryParse buf = .complete handshake)
    (short : (asBytes handshake.host).length ≤ 255) :
    (decodeLogin (sendsHeader route clientAddr) peer).run
        (statusDial route addr handshake clientAddr) =
      some ((⟨knownAs route clientAddr peer, statusHandshake handshake⟩, statusRequest), []) := by
  have read := @tryParse_encodeHandshake handshake.protocolVersion 1 handshake.host handshake.port
    short statusRequest
  rw [handshakeHost_parsed parsed] at read
  have request := decodeFrame_statusRequest []
  rw [List.append_nil] at request
  apply decodeLogin_iff.mpr
  refine ⟨_, decodeSource_header _, decodeFrames_eq_some.mpr ⟨statusRequest, ?_, request⟩⟩
  apply decodeHandshake_eq_some.mpr
  refine ⟨read, ?_⟩
  rw [statusHandshake, List.drop_append_length]

private theorem opensPacket_encodeHandshake {version next : Int32} {host : Text} {port : UInt16}
    (more : Bytes) : OpensPacket (encodeHandshake version host port next ++ more) := by
  rw [encodeHandshake_eq, lengthPrefix, handshakePayload]
  simp only [List.append_assoc]
  exact ⟨_, _, _, _, reads_writeVarInt _, reads_packetId, rfl⟩

/-- The parser rejects a handshake with a longer host than it would read. -/
theorem tryParse_longHost {version next : Int32} {host : Text} {port : UInt16}
    (long : 255 < (asBytes host).length) (small : (asBytes host).length < 2 ^ 31) (more : Bytes)
    (h : Handshake) : tryParse (encodeHandshake version host port next ++ more) ≠ .complete h := by
  intro parsed
  obtain ⟨f, holds, -⟩ := tryParse_complete_iff.mp parsed
  obtain ⟨rest, same⟩ := holds.fields
  simp only [encodeHandshake_eq, lengthPrefix, handshakePayload, writeString,
    HandshakeFields.bytes, HandshakeFields.body, List.append_assoc] at same
  -- field by field up to the length of the host
  obtain ⟨-, same, -⟩ := f.length_reads.unique readVarInt_local (reads_writeVarInt _) same
  obtain ⟨-, same, -⟩ := f.id_reads.unique readVarInt_local (reads_writeVarInt _) same
  obtain ⟨-, same, -⟩ := f.version_reads.unique readVarInt_local (reads_writeVarInt _) same
  obtain ⟨-, -, length⟩ := f.hostLength_reads.unique readVarInt_local (reads_writeVarInt _) same
  have few := f.host_length_le
  rw [f.host_length, length, Int32.toNatClampNeg_ofNat_of_lt small] at few
  omega

/-- With a longer host the bytes say nothing, whether a header is expected or not. -/
theorem decodeHello_statusDial (parsed : tryParse buf = .complete handshake)
    (long : 255 < (asBytes handshake.host).length) (expects : Bool) (hello : Hello) (rest : Bytes) :
    (decodeHello expects peer).run (statusDial route addr handshake clientAddr) ≠
      some (hello, rest) := by
  intro decoded
  have few := length_host_le parsed
  have rejected := @tryParse_longHost handshake.protocolVersion 1 handshake.host handshake.port
    long (by omega) statusRequest
  obtain ⟨middle, source, read⟩ := decodeHello_eq_some.mp decoded
  have accepted := (decodeHandshake_eq_some.mp read).1
  by_cases same : expects = sendsHeader route clientAddr
  · subst same
    rw [statusDial, decodeSource_header] at source
    obtain ⟨-, rfl⟩ := Prod.mk.inj (Option.some.inj source)
    exact rejected _ accepted
  · cases sends : sendsHeader route clientAddr with
    | false =>
      -- a header is expected where the handshake is
      obtain rfl : expects = true := by simpa [sends] using same
      obtain ⟨_, n, header, -⟩ := decodeSource_true.mp source
      rw [statusDial, dialHeader, sends] at header
      exact (opensPacket_encodeHandshake statusRequest).no_header header
    | true =>
      -- and the other way round
      obtain rfl : expects = false := by simpa [sends] using same
      obtain ⟨-, rfl⟩ := decodeSource_false.mp source
      have header := (proxyHeader_roundTrip clientAddr addr
        ((statusHandshake handshake).rawFrame ++ statusRequest)).1
      rw [statusDial, dialHeader, sends] at accepted
      exact (opensPacket_of_tryParse accepted).no_header header

end Dial

/-! ### The inner gate -/

namespace Server

open Machine Threads

/-- Whom a connection takes its client for, its stream says. -/
theorem Conn.Reads.told {peer : SocketAddr} {stream : Bytes} {conn : Conn}
    (reads : conn.Reads peer stream) {hello : Hello} (known : conn.hello = some hello) :
    ∃ expects rest, (decodeHello expects peer).run stream = some (hello, rest) := by
  cases conn with
  | routing a handshake index route =>
    cases known
    exact ⟨_, _, reads⟩
  | readingStatusRequest r | checkingLimit r | readingLoginStart r =>
    cases known
    exact ⟨_, _, reads⟩
  | answeringStatus r request =>
    cases known
    obtain ⟨middle, decoded, -⟩ := decodeLogin_eq_some.mp reads.1
    exact ⟨_, middle, decoded⟩
  | provenReal r player =>
    cases known
    obtain ⟨_, read, -⟩ := reads
    obtain ⟨middle, decoded, -⟩ := decodeLogin_eq_some.mp read
    exact ⟨_, middle, decoded⟩
  | resolving | dialing | counting | timing | registeringVoice | sniffing | relaying
  | discounting | unlisting | recording | unregisteringVoice =>
    cases known
    obtain ⟨expects, _, _, read, -⟩ := reads
    obtain ⟨middle, decoded, -⟩ := decodeLogin_eq_some.mp read
    exact ⟨expects, middle, decoded⟩
  | _ => cases known

/-- The status request that the connection has read. -/
def Conn.request : Conn → Option Bytes
  | .answeringStatus _ request => some request
  | _ => none

/-- What is read behind the handshake is what the whole stream has there. -/
theorem Conn.Reads.asked {peer : SocketAddr} {front stream rest : Bytes} {expects : Bool}
    {hello : Hello} {frame request : Bytes} {conn : Conn} (reads : conn.Reads peer front)
    (isFront : front <+: stream)
    (decoded : (decodeLogin expects peer).run stream = some ((hello, frame), rest))
    (asked : conn.request = some request) : request = frame := by
  cases conn with
  | answeringStatus r read =>
    cases asked
    exact (decodeLogin_front isFront reads.1 decoded).2.2
  | _ => cases asked

/-- The request of a status arrives at an inner gate as what it was: from the client, for the
version, the host and the port that it asked for, with the request itself behind the handshake.
That is so exactly up to a host of 255 bytes; with a longer one the inner gate never gets as far
as a route. -/
theorem status_behind_gate {route : Route} {addr clientAddr : SocketAddr} {handshake : Handshake}
    {buf : Bytes} {headerWritten handshakeWritten requestWritten : Written} {backend : Writer}
    (parsed : tryParse buf = .complete handshake)
    (dialed : requestBackendStatus route addr handshake clientAddr headerWritten handshakeWritten
      requestWritten = some backend)
    {toLowercase : Text → Text} {gate last : Gate} {i : Nat} {peer : SocketAddr}
    {events : List (Event Party Choice)} {conn : Conn}
    (accepted : gate.threads[i]? = some (.connection (.accepted peer backend.delivered)))
    (ran : run (Gate.step toLowercase) gate events = some last)
    (at_last : last.threads[i]? = some (.connection conn)) :
    ((asBytes handshake.host).length ≤ 255 →
      conn.TakesFor (sendsHeader route clientAddr)
        ⟨knownAs route clientAddr peer, statusHandshake handshake⟩
        (parseLoginStart statusRequest) ∧
      ∀ request ∈ conn.request, request = statusRequest) ∧
    (255 < (asBytes handshake.host).length → conn.hello = none) := by
  have reads := run_reads accepted ran at_last
  have front : backend.delivered <+: statusDial route addr handshake clientAddr := by
    rw [← requestBackendStatus_sends dialed]
    exact backend.delivered_prefix
  constructor
  · intro short
    have decoded := @decodeLogin_statusDial route addr clientAddr peer _ _ parsed short
    exact ⟨reads.takesFor front decoded, fun request asked => reads.asked front decoded asked⟩
  · intro long
    by_contra some
    obtain ⟨hello, known⟩ := Option.ne_none_iff_exists'.mp some
    obtain ⟨expects, rest, decoded⟩ := reads.told known
    obtain ⟨more, whole⟩ := front
    have longer := stable_decodeHello _ _ _ _ _ decoded more
    rw [whole] at longer
    exact decodeHello_statusDial parsed long expects hello _ longer

/-- Steve asks `play.example.com` for its status. -/
def steveAsks : Handshake := statusHandshake pinging

/-- The connection at the head of the pool, if it has read a status request. -/
def asking (gate : Gate) : Option Conn :=
  match (gate.threads[0]? : Option Party) with
  | some (.connection conn) => if conn.request.isSome then some conn else none
  | _ => none

/-- The inner gate knows that it is Steve who asks, and for what. -/
theorem status_behind_gate_steve :
    ∃ conn : Conn, conn.request = some statusRequest ∧
      conn.TakesFor true ⟨steve, steveAsks⟩ (parseLoginStart statusRequest) := by
  have known : ((requestBackendStatus forwarding ⟨.v4 ⟨10, 0, 0, 1⟩, 25565⟩ steveAsks steve .all
      .all .all).bind fun backend => (run (Gate.step id) (innerGate backend.delivered)
        (innerMoves.take 11)).bind asking).isSome := by decide +kernel
  obtain ⟨conn, known⟩ := Option.isSome_iff_exists.mp known
  obtain ⟨backend, dialed, known⟩ := Option.bind_eq_some_iff.mp known
  obtain ⟨last, ran, known⟩ := Option.bind_eq_some_iff.mp known
  have parsed : tryParse steveAsks.rawFrame = .complete steveAsks := by decide +kernel
  have short : (asBytes steveAsks.host).length ≤ 255 := by decide +kernel
  have accepted : (innerGate backend.delivered).threads[0]? =
      some (.connection (.accepted outerAddr backend.delivered)) := rfl
  have at_last : last.threads[0]? = some (.connection conn) ∧ conn.request.isSome := by
    unfold asking at known
    split at known
    next conn' there =>
      obtain ⟨knows, same⟩ := Option.ite_none_right_eq_some.mp known
      obtain rfl := Option.some.inj same
      exact ⟨there, knows⟩
    · cases known
  obtain ⟨takes, asked⟩ := (status_behind_gate parsed dialed accepted ran at_last.1).1 short
  obtain ⟨request, read⟩ := Option.isSome_iff_exists.mp at_last.2
  exact ⟨conn, asked request read ▸ read, takes⟩

end Server

end MCGate
