import MCGate.Lib.BigEndian
import MCGate.Net.LoginStream
import MCGate.Net.Splice
import MCGate.Net.Status
import MCGate.Protocol.HandshakeRoundTrip

/-!
# The answer of a status request

A client that asks for the status is sent a JSON text in a frame, and then its ping is echoed.
The text comes from a backend, which is asked in two ways: by `fetch_backend_status` for a client,
and by `ping_backend_live` for a health check. Where the backend is a gate itself, one gate reads
what the other one writes, so an answer passes through any number of them, unchanged.
-/
namespace MCGate

open Api BufferedStream Reader

/-! ### Packets -/

/-- `i64::to_be_bytes` -/
def toBeBytes64 (n : Int64) : Bytes := BigEndian.encode 8 n.toUInt64.toNat

/-- `i64::from_be_bytes` -/
def fromBeBytes64 (bytes : Bytes) : Int64 := (UInt64.ofNat (BigEndian.decode bytes)).toInt64

def encodeStatusResponse (json : Text) : Bytes :=
  lengthPrefix (writeVarInt 0x00 ++ writeString json)

def encodePong (payload : Int64) : Bytes := lengthPrefix (writeVarInt 0x01 ++ toBeBytes64 payload)

example : encodePong 0x123456789abcdef0 =
    [9, 1, 0x12, 0x34, 0x56, 0x78, 0x9a, 0xbc, 0xde, 0xf0] := by decide

/-! ### The two dials -/

/-- The limit of both on a frame, and on the characters of the text in it. -/
def statusLimit : Int32 := 262144

/-- `fetch_backend_status` behind its request, with what the backend has sent when the five
seconds are over. -/
def fetchBackendStatus (parse : Text → Option Json) (backend : BufferedStream)
    (arrivals : List Arrival) : Option Text :=
  match (backend.readFrame statusLimit arrivals).1 with
  | .ready (.ok frame) => do
    let (_, headerLen) ← (readVarInt frame).toOption
    let (packetId, consumed) ← (readVarInt (frame.drop headerLen)).toOption
    if packetId ≠ 0x00 then none
    let (json, _) ← (readString (frame.drop (headerLen + consumed)) statusLimit).toOption
    if !isValidStatusJson parse json then none
    return json
  | .ready (.error _) | .pending => none

structure PingResult where
  statusJson : Text
  latencyMillis : Int64
  deriving DecidableEq, Repr

inductive PingError where
  | connect (e : IoError)
  | timeout
  | io (e : IoError)
  | unexpectedPacketId (id : Int32)
  deriving DecidableEq, Repr

/-- `ping_backend_live` behind its request, which it began at `start`. -/
def pingBackendLive (backend : BufferedStream) (arrivals : List Arrival) (start now : Instant) :
    Except PingError PingResult :=
  match (backend.readFrame statusLimit arrivals).1 with
  | .pending => .error .timeout
  | .ready (.error e) => .error (.io e)
  | .ready (.ok frame) =>
    match readVarInt frame with
    | .error _ => .error (.io ⟨.invalidData, "bad frame"⟩)
    | .ok (_, headerLen) =>
      match readVarInt (frame.drop headerLen) with
      | .error _ => .error (.io ⟨.invalidData, "bad packet id"⟩)
      | .ok (packetId, consumed) =>
        if packetId ≠ 0x00 then .error (.unexpectedPacketId packetId)
        else match readString (frame.drop (headerLen + consumed)) statusLimit with
        | .error _ => .error (.io ⟨.invalidData, "bad string"⟩)
        | .ok (json, _) => .ok ⟨json, Int64.ofNat ((now - start) / 1000000)⟩

/-- The two see the same backend alike: a client is sent what a health check finds, where it is
valid, and a backend that fails the check has no answer for clients either. -/
theorem fetch_eq_ping (parse : Text → Option Json) (backend : BufferedStream)
    (arrivals : List Arrival) (start now : Instant) :
    fetchBackendStatus parse backend arrivals =
      ((pingBackendLive backend arrivals start now).toOption.map PingResult.statusJson).filter
        (isValidStatusJson parse) := by
  unfold fetchBackendStatus pingBackendLive
  cases (backend.readFrame statusLimit arrivals).1 with
  | pending => rfl
  | ready read =>
    cases read with
    | error e => rfl
    | ok frame =>
      dsimp only
      cases readVarInt frame with
      | error e => rfl
      | ok length =>
        obtain ⟨_, headerLen⟩ := length
        cases packet : readVarInt (frame.drop headerLen) with
        | error e => simp [Except.toOption, packet]
        | ok id =>
          obtain ⟨packetId, consumed⟩ := id
          by_cases status : packetId = 0x00
          · cases text : readString (frame.drop (headerLen + consumed)) statusLimit with
            | error e => simp [Except.toOption, packet, status, text]
            | ok string =>
              cases valid : isValidStatusJson parse string.1 <;>
                simp [Except.toOption, packet, status, text, valid, Option.filter]
          · simp [Except.toOption, packet, status]

/-! ### What an answer says -/

private theorem fetchBackendStatus_eq_some {parse : Text → Option Json} {backend : BufferedStream}
    {arrivals : List Arrival} {json : Text} :
    fetchBackendStatus parse backend arrivals = some json ↔
      ∃ frame backend', backend.readFrame statusLimit arrivals = (.ready (.ok frame), backend') ∧
        ∃ length headerLen consumed n, readVarInt frame = .ok (length, headerLen) ∧
          readVarInt (frame.drop headerLen) = .ok (0x00, consumed) ∧
          readString (frame.drop (headerLen + consumed)) statusLimit = .ok (json, n) ∧
          isValidStatusJson parse json := by
  unfold fetchBackendStatus
  generalize backend.readFrame statusLimit arrivals = answer
  obtain ⟨polled, backend'⟩ := answer
  cases polled with
  | pending => simp
  | ready read =>
    cases read with
    | error e => simp
    | ok frame =>
      simp only [Prod.mk.injEq, Poll.ready.injEq, Except.ok.injEq, existsAndEq, and_true,
        true_and]
      -- each check that fails makes both sides false
      cases length : readVarInt frame with
      | error e => simp [Except.toOption]
      | ok header =>
        obtain ⟨length, headerLen⟩ := header
        cases packet : readVarInt (frame.drop headerLen) with
        | error e => simp [Except.toOption, packet]
        | ok id =>
          obtain ⟨packetId, consumed⟩ := id
          by_cases status : packetId = 0x00
          · cases text : readString (frame.drop (headerLen + consumed)) statusLimit with
            | error e => simp [Except.toOption, packet, status, text]
            | ok string =>
              obtain ⟨value, n⟩ := string
              cases valid : isValidStatusJson parse value <;>
                simp [Except.toOption, packet, status, text, valid]
              all_goals
                rintro rfl
                exact valid
          · simp [Except.toOption, packet, status]

/-- A frame whose length is written as it is. -/
theorem decodeFrame_lengthPrefix {payload : Bytes} {maxLen : Int32} (more : Bytes)
    (short : (payload.length : Int) ≤ maxLen.toInt) :
    (decodeFrame maxLen).run (lengthPrefix payload ++ more) =
      some (lengthPrefix payload, more) := by
  have small : payload.length < 2 ^ 31 := by
    have := maxLen.toInt_lt
    omega
  have read := readVarInt_writeVarInt (Int32.ofNat payload.length) (payload ++ more)
  have range := ofNat_range small short
  have declared : (Int32.ofNat payload.length).toNatClampNeg = payload.length :=
    Int32.toNatClampNeg_ofNat_of_lt small
  apply decodeFrame_eq_some.mpr
  refine ⟨(lengthPrefix payload).length, ?_, ?_, ?_⟩
  · rw [lengthPrefix, List.append_assoc]
    simp only [checkFrame, read, range, and_self, not_true_eq_false, if_false, declared,
      List.length_append]
    rw [if_pos (by omega)]
  · rw [List.take_append_length]
  · rw [List.drop_append_length]

/-- The contents of a frame that answers with `json`. -/
def statusPayload (json : Text) : Bytes := writeVarInt 0x00 ++ writeString json

/-- The frame is within the limit of those who read it. -/
def StatusFits (json : Text) : Prop := (statusPayload json).length ≤ 262144

instance (json : Text) : Decidable (StatusFits json) := inferInstanceAs (Decidable (_ ≤ _))

private theorem asBytes_length_le_payload (json : Text) :
    (asBytes json).length ≤ (statusPayload json).length := by
  simp only [statusPayload, writeString, List.length_append]
  omega

private theorem payload_length_le (json : Text) :
    (statusPayload json).length ≤ (asBytes json).length + 10 := by
  have id := (length_writeVarInt 0x00).2
  have size := (length_writeVarInt (Int32.ofNat (asBytes json).length)).2
  simp only [statusPayload, writeString, List.length_append]
  omega

variable {parse : Text → Option Json} {json json' : Text}

/-- What is read of the frame of an answer. -/
theorem read_encodeStatusResponse (fits : StatusFits json) :
    ∃ length headerLen consumed n,
      readVarInt (encodeStatusResponse json) = .ok (length, headerLen) ∧
      readVarInt ((encodeStatusResponse json).drop headerLen) = .ok (0x00, consumed) ∧
      readString ((encodeStatusResponse json).drop (headerLen + consumed)) statusLimit =
        .ok (json, n) := by
  have bytes := asBytes_length_le_payload json
  have limit : saturatingMul4 statusLimit = 1048576 := by decide
  unfold StatusFits at fits
  have text := @reads_writeString json statusLimit (by omega)
  refine ⟨_, _, (writeVarInt 0x00).length, (writeString json).length,
    readVarInt_writeVarInt _ _, ?_, ?_⟩
  · rw [encodeStatusResponse, lengthPrefix, List.drop_append_length]
    exact readVarInt_writeVarInt 0x00 (writeString json)
  · rw [← List.drop_drop, encodeStatusResponse, lengthPrefix, List.drop_append_length,
      List.drop_append_length]
    exact text

/-- An answer within the limit is read as it was given, in whatever chunks it arrives. -/
theorem fetch_answer (fits : StatusFits json) (valid : isValidStatusJson parse json) (more : Bytes)
    (sizes : List Nat) (enough : (encodeStatusResponse json ++ more).length ≤ sizes.length) :
    fetchBackendStatus parse (.new (encodeStatusResponse json ++ more)) (sizes.map .ready) =
      some json := by
  have limit : statusLimit.toInt = 262144 := by decide
  have decoded := @decodeFrame_lengthPrefix (statusPayload json) statusLimit more
    (by unfold StatusFits at fits; omega)
  obtain ⟨backend', read, -⟩ := @readFrame_ready more
    (.new (encodeStatusResponse json ++ more)) statusLimit _ decoded sizes enough
  obtain ⟨length, headerLen, consumed, n, header, packet, text⟩ := read_encodeStatusResponse fits
  apply fetchBackendStatus_eq_some.mpr
  exact ⟨_, backend', read, length, headerLen, consumed, n, header, packet, text, valid⟩

/-- A text that is sent as an answer, and fits its length prefix, is read as that or not at all:
not if its frame is too long, and not if a client could not read it. -/
theorem answer_of_fetch (size : (asBytes json).length < 2 ^ 30) {more : Bytes}
    {arrivals : List Arrival}
    (fetched : fetchBackendStatus parse (.new (encodeStatusResponse json ++ more)) arrivals =
      some json') :
    json' = json ∧ StatusFits json ∧ isValidStatusJson parse json := by
  obtain ⟨frame, backend', read, length, headerLen, consumed, n, header, packet, text, valid⟩ :=
    fetchBackendStatus_eq_some.mp fetched
  have decoded := readFrame_decodes read
  have few := payload_length_le json
  have limit : statusLimit.toInt = 262144 := by decide
  -- the frame has been found, so its length is in range
  have fits : StatusFits json := by
    obtain ⟨total, found, -⟩ := decodeFrame_eq_some.mp decoded
    rw [new_remainder, encodeStatusResponse, lengthPrefix, List.append_assoc] at found
    have prefixed := readVarInt_writeVarInt (Int32.ofNat (statusPayload json).length)
      (statusPayload json ++ more)
    rw [checkFrame] at found
    rw [statusPayload] at prefixed
    rw [prefixed] at found
    dsimp only at found
    split at found
    · cases found
    next range =>
      have upper := Int32.le_iff_toInt_le.mp (not_not.mp range).2
      rw [Int32.toInt_ofNat_of_lt (by rw [← statusPayload]; omega), ← statusPayload, limit] at upper
      unfold StatusFits
      omega
  have whole := @decodeFrame_lengthPrefix (statusPayload json) statusLimit more
    (by unfold StatusFits at fits; omega)
  have same : frame = encodeStatusResponse json := by
    rw [new_remainder] at decoded
    exact (Prod.mk.inj (Option.some.inj (decoded.symm.trans whole))).1
  subst same
  obtain ⟨_, _, _, _, header', packet', text'⟩ := read_encodeStatusResponse fits
  rw [header, Except.ok.injEq, Prod.mk.injEq] at header'
  obtain ⟨-, rfl⟩ := header'
  rw [packet, Except.ok.injEq, Prod.mk.injEq] at packet'
  obtain ⟨-, rfl⟩ := packet'
  rw [text, Except.ok.injEq, Prod.mk.injEq] at text'
  obtain ⟨rfl, -⟩ := text'
  exact ⟨rfl, fits, valid⟩

/-! ### Through gates -/

/-- A gate is sent `json` as an answer and `following` after it, which arrive as `arrivals`. -/
structure AnswerHop where
  following : Bytes
  arrivals : List Arrival

/-- What is left of an answer behind a row of gates, each of which asks the one before it. -/
def throughGates (parse : Text → Option Json) : List AnswerHop → Text → Option Text
  | [], json => some json
  | hop :: hops, json =>
    (fetchBackendStatus parse (.new (encodeStatusResponse json ++ hop.following))
      hop.arrivals).bind (throughGates parse hops)

/-- All of the answer arrives. -/
def AnswerHop.Complete (json : Text) (hop : AnswerHop) : Prop :=
  ∃ sizes : List Nat, hop.arrivals = sizes.map .ready ∧
    (encodeStatusResponse json ++ hop.following).length ≤ sizes.length

/-- An answer passes through gates unchanged or not at all, in whatever chunks it arrives at each
of them. If it passes through one, its frame is within the limit and it has a protocol that a
client can read; and then, if it arrives whole, it passes through any number of them. -/
theorem status_through_gates (parse : Text → Option Json) (json : Text)
    (size : (asBytes json).length < 2 ^ 30) :
    (∀ hops json', throughGates parse hops json = some json' → json' = json) ∧
      (∀ hop hops json', throughGates parse (hop :: hops) json = some json' →
        StatusFits json ∧ isValidStatusJson parse json) ∧
      ((StatusFits json ∧ isValidStatusJson parse json) ↔
        ∀ hops : List AnswerHop, (∀ hop ∈ hops, hop.Complete json) →
          throughGates parse hops json = some json) := by
  have first_gate {hop : AnswerHop} {hops : List AnswerHop} {json' : Text}
      (passed : throughGates parse (hop :: hops) json = some json') :
      StatusFits json ∧ isValidStatusJson parse json := by
    obtain ⟨first, fetched, -⟩ := Option.bind_eq_some_iff.mp passed
    exact (answer_of_fetch size fetched).2
  refine ⟨?_, fun _ _ _ passed => first_gate passed, ?_, ?_⟩
  · intro hops json' passed
    induction hops with
    | nil => exact (Option.some.inj passed).symm
    | cons hop hops ih =>
      obtain ⟨first, fetched, rest⟩ := Option.bind_eq_some_iff.mp passed
      obtain ⟨rfl, -⟩ := answer_of_fetch size fetched
      exact ih rest
  · rintro ⟨fits, valid⟩ hops complete
    induction hops with
    | nil => rfl
    | cons hop hops ih =>
      obtain ⟨here, later⟩ := List.forall_mem_cons.mp complete
      obtain ⟨sizes, arrivals, enough⟩ := here
      apply Option.bind_eq_some_iff.mpr
      refine ⟨json, ?_, ih later⟩
      rw [arrivals]
      exact fetch_answer fits valid hop.following sizes enough
  · intro always
    -- one gate decides
    let hop : AnswerHop := ⟨[], (List.replicate (encodeStatusResponse json).length 1).map .ready⟩
    have complete : hop.Complete json := by
      refine ⟨_, rfl, ?_⟩
      rw [List.append_nil, List.length_replicate]
    exact first_gate (always [hop] (List.forall_mem_singleton.mpr complete))

def plainStatus : Text :=
  "\x7b\"version\":\x7b\"name\":\"1.21\",\"protocol\":767\x7d\x7d".toList

/-- Two gates, at which the answer arrives byte by byte, with the echo of a ping behind it. -/
def twoGates : List AnswerHop :=
  [⟨encodePong 7, (List.replicate 100 1).map .ready⟩, ⟨[], (List.replicate 100 1).map .ready⟩]

/-- It passes through both. -/
theorem status_through_gates_plain :
    throughGates Json.read twoGates plainStatus = some plainStatus := by
  have passes := (status_through_gates Json.read plainStatus (by decide)).2.2.mp
    ⟨by decide, by decide +kernel⟩
  apply passes
  intro hop member
  simp only [twoGates, List.mem_cons, List.not_mem_nil, or_false] at member
  rcases member with rfl | rfl
  · exact ⟨_, rfl, by decide⟩
  · exact ⟨_, rfl, by decide⟩

/-! ### The exchange with a client -/

/-- What is answered to a frame, if it is a ping. -/
def pongOf (frame : Bytes) : Option Bytes := do
  let (_, headerLen) ← (readVarInt frame).toOption
  let (packetId, consumed) ← (readVarInt (frame.drop headerLen)).toOption
  if packetId ≠ 0x01 then none
  let payloadStart := headerLen + consumed
  if frame.length - payloadStart < 8 then none
  return encodePong (fromBeBytes64 ((frame.drop payloadStart).take 8))

/-- `handle_ping`: the pong, with what the client has sent when the ten seconds are over. -/
def handlePing (stream : BufferedStream) (arrivals : List Arrival) : Option Bytes :=
  match (stream.readFrame 64 arrivals).1 with
  | .ready (.ok frame) => pongOf frame
  | .ready (.error _) | .pending => none

/-- What `handle_status` writes to a client that asks at a gate that has `answer` for it. -/
def handleStatus (stream : BufferedStream) (request : List Arrival) (answer : Option Text)
    (written : Written) (ping : List Arrival) (pongWritten : Written) : Writer :=
  match stream.readFrame MAX_PACKET_BYTES request with
  | (.ready (.ok frame), stream) =>
    match answer with
    | none => .new
    | some json =>
      if !isStatusRequest frame then .new
      else
        -- how the writes end is not looked at
        let client := (Writer.new.writeAll (encodeStatusResponse json) written).2
        match handlePing stream ping with
        | some pong => (client.writeAll pong pongWritten).2
        | none => client
  | _ => .new

/-- The request of a client: packet id 0 without fields. -/
def statusRequest : Bytes := writeVarInt 1 ++ writeVarInt 0x00

private theorem isStatusRequest_statusRequest : isStatusRequest statusRequest = true := rfl

theorem decodeFrame_statusRequest (more : Bytes) :
    (decodeFrame MAX_PACKET_BYTES).run (statusRequest ++ more) = some (statusRequest, more) :=
  @decodeFrame_lengthPrefix [0x00] MAX_PACKET_BYTES more (by decide)

private theorem fromBeBytes64_toBeBytes64 (payload : Int64) :
    fromBeBytes64 (toBeBytes64 payload) = payload := by
  have fits : payload.toUInt64.toNat < 256 ^ 8 := payload.toUInt64.toNat_lt
  rw [fromBeBytes64, toBeBytes64, BigEndian.decode_encode fits, UInt64.ofNat_toNat]
  rfl

private theorem toBeBytes64_fromBeBytes64 {bytes : Bytes} (eight : bytes.length = 8) :
    toBeBytes64 (fromBeBytes64 bytes) = bytes := by
  have fits := BigEndian.decode_lt bytes
  rw [eight] at fits
  have value : (UInt64.ofNat (BigEndian.decode bytes)).toNat = BigEndian.decode bytes :=
    UInt64.toNat_ofNat_of_lt' fits
  have same : (fromBeBytes64 bytes).toUInt64 = UInt64.ofNat (BigEndian.decode bytes) := rfl
  rw [toBeBytes64, same, value, ← eight]
  exact BigEndian.encode_decode bytes

private theorem length_toBeBytes64 (payload : Int64) : (toBeBytes64 payload).length = 8 :=
  BigEndian.length_encode 8 _

private theorem encodePong_eq (payload : Int64) :
    encodePong payload = 9 :: 1 :: toBeBytes64 payload := by
  have length : (writeVarInt 0x01 ++ toBeBytes64 payload).length = 9 := by
    rw [List.length_append, length_toBeBytes64]
    rfl
  rw [encodePong, lengthPrefix, length]
  rfl

/-- Whatever the frame of a ping looks like, its answer carries eight bytes of it. -/
theorem pongOf_eq_some {frame pong : Bytes} (answered : pongOf frame = some pong) :
    ∃ payload, payload.length = 8 ∧ payload <:+: frame ∧ pong = 9 :: 1 :: payload := by
  unfold pongOf at answered
  obtain ⟨⟨_, headerLen⟩, -, answered⟩ := Option.bind_eq_some_iff.mp answered
  obtain ⟨⟨packetId, consumed⟩, -, answered⟩ := Option.bind_eq_some_iff.mp answered
  obtain ⟨-, answered⟩ := Option.ite_none_left_eq_some.mp answered
  obtain ⟨enough, answered⟩ := Option.ite_none_left_eq_some.mp answered
  have eight : ((frame.drop (headerLen + consumed)).take 8).length = 8 := by
    rw [List.length_take, List.length_drop]
    omega
  refine ⟨(frame.drop (headerLen + consumed)).take 8, eight, ?_, ?_⟩
  · exact (List.take_prefix _ _).isInfix.trans (List.drop_suffix _ _).isInfix
  · rw [← Option.some.inj answered, encodePong_eq, toBeBytes64_fromBeBytes64 eight]

/-- A ping is answered with itself. -/
theorem pongOf_ping (payload : Int64) :
    pongOf (encodePong payload) = some (encodePong payload) := by
  have bytes : (toBeBytes64 payload).take 8 = toBeBytes64 payload :=
    List.take_of_length_le (Nat.le_of_eq (length_toBeBytes64 payload))
  have length : readVarInt (9 :: 1 :: toBeBytes64 payload) = .ok (9, 1) := rfl
  have id : readVarInt (1 :: toBeBytes64 payload) = .ok (1, 1) := rfl
  simp [pongOf, encodePong_eq, length, id, Except.toOption, length_toBeBytes64, bytes,
    fromBeBytes64_toBeBytes64]

private theorem decodeFrame_ping (payload : Int64) (more : Bytes) :
    (decodeFrame 64).run (encodePong payload ++ more) = some (encodePong payload, more) := by
  apply decodeFrame_lengthPrefix
  rw [List.length_append, length_toBeBytes64]
  decide

section Session

variable {payload : Int64} {more : Bytes} {request ping : List Arrival} {json : Text}
  {written pongWritten : Written}

private theorem handlePing_echoes {s : BufferedStream} {pong : Bytes}
    (pinged : s.remainder = encodePong payload ++ more)
    (answered : handlePing s ping = some pong) : pong = encodePong payload := by
  unfold handlePing at answered
  split at answered
  next frame read =>
    have decoded := readFrame_decodes (Prod.ext read rfl : s.readFrame 64 ping = (_, _))
    rw [pinged, decodeFrame_ping] at decoded
    cases decoded
    rw [pongOf_ping] at answered
    exact (Option.some.inj answered).symm
  · cases answered
  · cases answered

/-- Whatever of its request and its ping arrives, and whatever of the answers is taken: a client
is sent a front of the answer and of its own ping behind it. -/
theorem handleStatus_sends {client : Writer}
    (served : handleStatus (.new (statusRequest ++ (encodePong payload ++ more))) request
      (some json) written ping pongWritten = client) :
    client.handed <+: encodeStatusResponse json ++ encodePong payload := by
  subst served
  unfold handleStatus
  split
  next frame stream read =>
    have decoded := readFrame_decodes read
    rw [new_remainder, decodeFrame_statusRequest] at decoded
    have behind : stream.remainder = encodePong payload ++ more :=
      (Prod.mk.inj (Option.some.inj decoded)).2.symm
    dsimp only
    split
    · exact List.nil_prefix
    · split
      next pong answered =>
        rw [Writer.handed_writeAll, Writer.handed_writeAll, Writer.handed_new, List.nil_append,
          handlePing_echoes behind answered]
      next =>
        rw [Writer.handed_writeAll, Writer.handed_new, List.nil_append]
        exact List.prefix_append _ _
  · exact List.nil_prefix

private theorem handlePing_ready {s : BufferedStream}
    (pinged : s.remainder = encodePong payload ++ more) (sizes : List Nat)
    (enough : s.remainder.length ≤ sizes.length) :
    handlePing s (sizes.map .ready) = some (encodePong payload) := by
  have decoded := decodeFrame_ping payload more
  rw [← pinged] at decoded
  have fewer : s.inner.length ≤ sizes.length := by
    rw [remainder, List.length_append] at enough
    omega
  obtain ⟨s', read, -⟩ := readFrame_ready decoded sizes fewer
  simp only [handlePing, read, pongOf_ping]

/-- A write that is not interrupted hands everything over. -/
theorem delivered_writeAll_all {w : Writer} (works : w.broken = false) (idle : w.pending = [])
    (bytes : Bytes) :
    (w.writeAll bytes .all).2 = ⟨w.delivered ++ bytes, [], false⟩ := by
  simp [Writer.writeAll, Writer.hand, Writer.push, works, idle]

/-- A client that asks and pings is sent the answer and its own ping and nothing else, whatever
arrives and whatever becomes of the writes; where everything arrives and is taken, it is sent all
of both. -/
theorem status_session (json : Text) (payload : Int64) (more : Bytes) :
    (∀ request written ping pongWritten,
      (handleStatus (.new (statusRequest ++ (encodePong payload ++ more))) request (some json)
        written ping pongWritten).delivered <+: encodeStatusResponse json ++ encodePong payload) ∧
    ∀ request ping : List Nat,
      (statusRequest ++ (encodePong payload ++ more)).length ≤ request.length →
      (statusRequest ++ (encodePong payload ++ more)).length ≤ ping.length →
      (handleStatus (.new (statusRequest ++ (encodePong payload ++ more))) (request.map .ready)
        (some json) .all (ping.map .ready) .all).delivered =
          encodeStatusResponse json ++ encodePong payload := by
  constructor
  · intro request written ping pongWritten
    apply List.IsPrefix.trans (Writer.delivered_prefix _)
    exact handleStatus_sends rfl
  · intro request ping arrives pings
    have decoded := decodeFrame_statusRequest (encodePong payload ++ more)
    obtain ⟨stream, read, behind⟩ := @readFrame_ready _
      (.new (statusRequest ++ (encodePong payload ++ more))) _ _ decoded request arrives
    rw [List.length_append] at pings
    have pong := handlePing_ready behind ping (by rw [behind]; omega)
    simp only [handleStatus, read, isStatusRequest_statusRequest, pong, Bool.not_true,
      Bool.false_eq_true, if_false]
    rw [@delivered_writeAll_all .new rfl rfl, delivered_writeAll_all rfl rfl]
    rfl

theorem status_session_plain :
    (handleStatus (.new (statusRequest ++ (encodePong 7 ++ [])))
      ((List.replicate 12 1).map .ready) (some plainStatus) .all
      ((List.replicate 12 1).map .ready) .all).delivered =
        encodeStatusResponse plainStatus ++ encodePong 7 :=
  (status_session plainStatus 7 []).2 _ _ (by decide) (by decide)

end Session

end MCGate
