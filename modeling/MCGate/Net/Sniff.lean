import MCGate.Lib.Machine
import MCGate.Net.Splice
import MCGate.Protocol.Compression
import MCGate.State.PlayerSessions

/-!
# Watching the backend's login answer

`sniff_backend_login` forwards both directions while it reads the backend's frames one
by one, until it knows the compression threshold and whether the connection is
encrypted. One pass of its loop is one event: a chunk from the client, a (possibly
still incomplete) frame from the backend, or the end of the ten seconds. `handle_login`
then stores what came out, or a default when nothing did.

What the backend really said is read off its frames by `loginPackets`; a stored
session is `Truthful` when its fields agree with that.
-/
namespace MCGate

/-! ### The loop -/

structure Sniff where
  splice : Splice
  compressionThreshold : Int32
  /-- What the function returned, once it has. -/
  returned : Option (Option (Int32 × Bool))
  deriving DecidableEq, Repr

inductive SniffEvent where
  | clientRead (arrival : Arrival) (written : Written)
  | backendFrame (arrivals : List Arrival) (written : Written)
  | timeout
  deriving DecidableEq, Repr

/-- What the loop does with a frame it has forwarded. -/
inductive FrameVerdict where
  | goOn (compressionThreshold : Int32)
  | leave (result : Option (Int32 × Bool))
  deriving DecidableEq, Repr

def inspectFrame (zlib : Zlib) (compressionThreshold : Int32) (frame : Bytes) : FrameVerdict :=
  match readVarInt frame with
  | .error _ => .leave none
  | .ok (_, headerLen) =>
    match readCompressedFrame zlib (frame.drop headerLen) compressionThreshold with
    -- unparsable: assume the worst
    | .error _ => .leave (some (compressionThreshold, true))
    | .ok (id, fields) =>
      if id = 0x01 then .leave (some (compressionThreshold, true))
      else if id = 0x03 then
        match readVarInt fields with
        | .ok (threshold, _) => .goOn threshold
        | .error _ => .goOn compressionThreshold
      else if id = 0x02 then .leave (some (compressionThreshold, false))
      else if id = 0x00 then .leave none
      else .goOn compressionThreshold

namespace Sniff

def start (splice : Splice) : Sniff := ⟨splice, -1, none⟩

/-- The loop reads further, or returns. -/
def conclude (s : Sniff) : FrameVerdict → Sniff
  | .goOn threshold => { s with compressionThreshold := threshold }
  | .leave result => { s with returned := some result }

def step (zlib : Zlib) (s : Sniff) (e : SniffEvent) : Option Sniff :=
  if s.returned.isSome then none
  else match e with
    | .timeout => some (s.conclude (.leave none))
    | .clientRead arrival written =>
      match s.splice.client.pollRead 4096 (some arrival) with
      | (.pending, _) => none
      | (.ready (.error _), client) =>
        some (conclude { s with splice := { s.splice with client := client } } (.leave none))
      | (.ready (.ok chunk), client) =>
        if chunk = [] then
          some (conclude { s with splice := { s.splice with client := client } } (.leave none))
        else
          let (ok, toBackend) := s.splice.toBackend.writeAll chunk written
          let s := { s with splice := { s.splice with client := client, toBackend := toBackend } }
          some (if ok then s else s.conclude (.leave none))
    | .backendFrame arrivals written =>
      match s.splice.backend.readFrame MAX_PACKET_BYTES arrivals with
      -- the branch lost, but what its read has buffered stays
      | (.pending, backend) => some { s with splice := { s.splice with backend := backend } }
      | (.ready (.error _), backend) =>
        some (conclude { s with splice := { s.splice with backend := backend } } (.leave none))
      | (.ready (.ok frame), backend) =>
        let (ok, toClient) := s.splice.toClient.writeAll frame written
        let verdict := if ok then inspectFrame zlib s.compressionThreshold frame else .leave none
        some (conclude { s with splice := { s.splice with backend := backend, toClient := toClient } }
          verdict)

end Sniff

/-- `sniff_backend_login(..).await.unwrap_or((-1, false))` and the session that
`handle_login` puts, for a login that gave a UUID. -/
def storeSession (login : Option (Text × Option Uuid)) (host : Text) (protocolVersion : Int32)
    (result : Option (Int32 × Bool)) : Option PlayerSession :=
  -- an end without an answer is stored like a plain, uncompressed login
  let (compressionThreshold, encrypted) := result.getD (-1, false)
  match login with
  | some (name, some uuid) =>
    some { name, uuid, host, protocolVersion, compressionThreshold, encrypted }
  | _ => none

/-- `can_inject_packet` -/
def canInjectPacket (session : PlayerSession) : Bool :=
  !session.encrypted && reconnectSupported session.protocolVersion

/-! ### What the backend said -/

/-- A clientbound packet of the Login state. -/
inductive LoginPacket where
  | disconnect
  | encryptionRequest
  | loginSuccess
  | setCompression (threshold : Option Int32)
  | other (id : Int32)
  | unreadable
  deriving DecidableEq, Repr

/-- The packet in a frame, on a connection with the given threshold. -/
def loginPacket (zlib : Zlib) (threshold : Int32) (frame : Bytes) : LoginPacket :=
  match readVarInt frame with
  | .error _ => .unreadable
  | .ok (_, headerLen) =>
    match readCompressedFrame zlib (frame.drop headerLen) threshold with
    | .error _ => .unreadable
    | .ok (id, fields) =>
      if id = 0x00 then .disconnect
      else if id = 0x01 then .encryptionRequest
      else if id = 0x02 then .loginSuccess
      else if id = 0x03 then .setCompression ((readVarInt fields).toOption.map Prod.fst)
      else .other id

/-- The threshold on the connection after a packet. -/
def LoginPacket.thresholdAfter (threshold : Int32) : LoginPacket → Int32
  | .setCompression (some t) => t
  | _ => threshold

/-- The packets in successive frames: each Set Compression changes how the next is read. -/
def loginPackets (zlib : Zlib) (threshold : Int32) : List Bytes → List LoginPacket
  | [] => []
  | frame :: frames =>
    let packet := loginPacket zlib threshold frame
    packet :: loginPackets zlib (packet.thresholdAfter threshold) frames

/-- The value of the last Set Compression, -1 if there was none. -/
def lastThreshold (packets : List LoginPacket) : Int32 :=
  packets.foldl LoginPacket.thresholdAfter (-1)

/-- The frames forwarded to the client are what the backend sent first, and they end in
a Login Success with no Encryption Request before it and with the session's threshold
in force. -/
def SaidLoginSuccess (zlib : Zlib) (backendStream forwarded : Bytes) (threshold : Int32) : Prop :=
  ∃ frames : List Bytes, (∀ f ∈ frames, IsFrame f) ∧ forwarded = frames.flatten ∧
    forwarded <+: backendStream ∧
    ∃ before, loginPackets zlib (-1) frames = before ++ [.loginSuccess] ∧
      .encryptionRequest ∉ before ∧ threshold = lastThreshold before

/-- Whatever session is stored on return, what it says of the connection is true: if it
is unencrypted, or a packet may be written into it. -/
def Sniff.Truthful (zlib : Zlib) (login : Option (Text × Option Uuid)) (host : Text)
    (protocolVersion : Int32) (backendStream : Bytes) (s : Sniff) : Prop :=
  ∀ result session, s.returned = some result →
    storeSession login host protocolVersion result = some session →
    session.encrypted = false ∨ canInjectPacket session →
    SaidLoginSuccess zlib backendStream s.splice.toClient.handed session.compressionThreshold

/-- The event does not end the sniff without an answer: the deadline is not reached,
neither socket ends or fails, and the backend does not turn the login away. -/
def Sniff.Answers (zlib : Zlib) (login : Option (Text × Option Uuid)) (s : Sniff)
    (e : SniffEvent) : Prop :=
  (∃ name uuid, login = some (name, some uuid)) →
    match e with
    | .timeout => False
    | .clientRead arrival written =>
      match (s.splice.client.pollRead 4096 (some arrival)).1 with
      | .ready (.ok (_ :: _)) => s.splice.toBackend.broken = false ∧ written = .all
      | _ => False
    | .backendFrame arrivals written =>
      match (s.splice.backend.readFrame MAX_PACKET_BYTES arrivals).1 with
      | .pending => True
      | .ready (.error _) => False
      | .ready (.ok frame) =>
        loginPacket zlib s.compressionThreshold frame ≠ .disconnect ∧
          s.splice.toClient.broken = false ∧ written = .all

/-! ### The loop against the packets -/

/-- What the loop does is decided by the packet. -/
def LoginPacket.verdict (threshold : Int32) : LoginPacket → FrameVerdict
  | .disconnect => .leave none
  | .encryptionRequest => .leave (some (threshold, true))
  | .loginSuccess => .leave (some (threshold, false))
  | .unreadable => .leave (some (threshold, true))
  | packet => .goOn (packet.thresholdAfter threshold)

private theorem inspectFrame_eq {frame : Bytes} (isFrame : IsFrame frame) (zlib : Zlib)
    (threshold : Int32) :
    inspectFrame zlib threshold frame = (loginPacket zlib threshold frame).verdict threshold := by
  obtain ⟨length, headerLen, read, -, -⟩ := isFrame
  simp only [inspectFrame, loginPacket, read]
  cases readCompressedFrame zlib (frame.drop headerLen) threshold with
  | error e => rfl
  | ok packet =>
    obtain ⟨id, fields⟩ := packet
    simp only
    -- the source tests the ids in another order, but they exclude each other
    by_cases three : id = 0x03
    · subst three
      cases readVarInt fields <;> rfl
    · by_cases zero : id = 0x00
      · simp [zero, LoginPacket.verdict]
      · by_cases one : id = 0x01
        · simp [one, LoginPacket.verdict]
        · by_cases two : id = 0x02
          · simp [two, LoginPacket.verdict]
          · simp [zero, one, two, three, LoginPacket.verdict, LoginPacket.thresholdAfter]

private theorem loginPackets_concat (zlib : Zlib) (threshold : Int32) (frames : List Bytes)
    (frame : Bytes) :
    loginPackets zlib threshold (frames ++ [frame]) =
      loginPackets zlib threshold frames ++ [loginPacket zlib
        ((loginPackets zlib threshold frames).foldl LoginPacket.thresholdAfter threshold)
        frame] := by
  induction frames generalizing threshold with
  | nil => rfl
  | cons f frames ih => simp only [List.cons_append, loginPackets, List.foldl_cons, ih]

namespace Sniff

@[simp] theorem conclude_splice (s : Sniff) (v : FrameVerdict) :
    (s.conclude v).splice = s.splice := by
  cases v <;> rfl

private theorem step_running {zlib : Zlib} {s s' : Sniff} {e : SniffEvent}
    (stepped : s.step zlib e = some s') : s.returned = none := by
  by_contra ended
  rw [step.eq_def, if_pos (Option.isSome_iff_ne_none.mpr ended)] at stepped
  cases stepped

/-- Every step only moves bytes, however the sniff ends. -/
theorem step_moves {zlib : Zlib} {s s' : Sniff} {e : SniffEvent}
    (stepped : s.step zlib e = some s') : s.splice.Moves s'.splice := by
  have running := step_running stepped
  rw [step.eq_def, running] at stepped
  simp only [Option.isSome_none, Bool.false_eq_true, if_false] at stepped
  cases e with
  | timeout =>
    rw [← Option.some.inj stepped]
    exact Splice.moves_refl _
  | clientRead arrival written =>
    -- what a read takes off the client's stream is what `write_all` is given
    have read := BufferedStream.pollRead_remainder s.splice.client 4096 (some arrival)
    dsimp only at stepped
    generalize s.splice.client.pollRead 4096 (some arrival) = polled at read stepped
    obtain ⟨result, client⟩ := polled
    cases result with
    | pending => cases stepped
    | ready answer =>
      cases answer with
      | error e =>
        rw [← Option.some.inj stepped]
        exact Splice.moves_up read (by simp [BufferedStream.readBytes])
      | ok chunk =>
        simp only at stepped
        split at stepped
        next eof =>
          rw [← Option.some.inj stepped]
          exact Splice.moves_up read (by simp [BufferedStream.readBytes, eof])
        next some =>
          have moved := Splice.moves_up read
            (Writer.handed_writeAll s.splice.toBackend chunk written)
          rw [← Option.some.inj stepped]
          split
          · exact moved
          · exact moved
  | backendFrame arrivals written =>
    have read := BufferedStream.readFrame_remainder s.splice.backend MAX_PACKET_BYTES arrivals
    dsimp only at stepped
    generalize s.splice.backend.readFrame MAX_PACKET_BYTES arrivals = polled at read stepped
    obtain ⟨result, backend⟩ := polled
    cases result with
    | pending =>
      rw [← Option.some.inj stepped]
      exact Splice.moves_down read (by simp [BufferedStream.readBytes])
    | ready answer =>
      cases answer with
      | error e =>
        rw [← Option.some.inj stepped]
        exact Splice.moves_down read (by simp [BufferedStream.readBytes])
      | ok frame =>
        rw [← Option.some.inj stepped, conclude_splice]
        exact Splice.moves_down read (Writer.handed_writeAll s.splice.toClient frame written)

/-- A step that does not end the sniff without an answer either forwards no frame and
leaves the sniff as it was, or forwards one and does what its packet asks for. -/
theorem step_answers {zlib : Zlib} {login : Option (Text × Option Uuid)} {s s' : Sniff}
    {e : SniffEvent} (uuid : ∃ name uuid, login = some (name, some uuid))
    (answers : s.Answers zlib login e) (stepped : s.step zlib e = some s') :
    (s'.splice.toClient = s.splice.toClient ∧
      s'.splice.backend.remainder = s.splice.backend.remainder ∧
      s'.compressionThreshold = s.compressionThreshold ∧ s'.returned = none) ∨
    ∃ frame, IsFrame frame ∧
      s'.splice.toClient.handed = s.splice.toClient.handed ++ frame ∧
      frame ++ s'.splice.backend.remainder = s.splice.backend.remainder ∧
      loginPacket zlib s.compressionThreshold frame ≠ .disconnect ∧
      s' = conclude ⟨s'.splice, s.compressionThreshold, none⟩
        ((loginPacket zlib s.compressionThreshold frame).verdict s.compressionThreshold) := by
  have running := step_running stepped
  have answers := answers uuid
  rw [step.eq_def, running] at stepped
  cases e with
  | timeout => exact answers.elim
  | clientRead arrival written =>
    cases read : s.splice.client.pollRead 4096 (some arrival) with
    | mk result client =>
      simp only [read] at answers
      split at answers
      · obtain ⟨works, rfl⟩ := answers
        simp only [read, Option.isSome_none, Bool.false_eq_true, if_false, reduceCtorEq,
          Writer.writeAll_works works, if_true, Option.some.injEq] at stepped
        subst stepped
        exact Or.inl ⟨rfl, rfl, rfl, rfl⟩
      · exact answers.elim
  | backendFrame arrivals written =>
    have kept := BufferedStream.readFrame_remainder s.splice.backend MAX_PACKET_BYTES arrivals
    simp only [Option.isSome_none, Bool.false_eq_true, if_false] at stepped
    split at stepped
    next backend read =>
      rw [read] at kept
      simp only [Option.some.injEq] at stepped
      subst stepped
      exact Or.inl ⟨rfl, kept, rfl, rfl⟩
    -- an error ends the sniff, which `answers` rules out
    next e backend read =>
      simp only [read] at answers
    next frame backend read =>
      simp only [read] at answers kept
      obtain ⟨stays, works, rfl⟩ := answers
      -- a frame that was read is a length prefix and that many bytes, so it can be inspected
      have isFrame := BufferedStream.readFrame_isFrame read
      simp only [Writer.writeAll_works works, if_true, inspectFrame_eq isFrame,
        Option.some.injEq] at stepped
      have splice : s'.splice = { s.splice with
          backend := backend, toClient := (s.splice.toClient.writeAll frame .all).2 } := by
        rw [← stepped, conclude_splice]
      refine Or.inr ⟨frame, isFrame, ?_, ?_, stays, ?_⟩
      · rw [splice, Writer.handed_writeAll]
      · rw [splice]
        exact kept
      · rw [splice, stepped]

/-- The frames forwarded so far, and what follows from their packets: while the sniff
runs none of them has decided it, and when it reports an unencrypted connection the
last one is a Login Success. -/
structure Watched (zlib : Zlib) (backendStream : Bytes) (s : Sniff) (frames : List Bytes) :
    Prop where
  isFrame : ∀ f ∈ frames, IsFrame f
  forwarded : s.splice.toClient.handed = frames.flatten
  sent : s.splice.toClient.handed ++ s.splice.backend.remainder = backendStream
  threshold : s.returned = none →
    s.compressionThreshold = lastThreshold (loginPackets zlib (-1) frames)
  undecided : s.returned = none → .encryptionRequest ∉ loginPackets zlib (-1) frames
  answered : s.returned ≠ some none
  unencrypted : ∀ t, s.returned = some (some (t, false)) → ∃ before,
    loginPackets zlib (-1) frames = before ++ [.loginSuccess] ∧
      .encryptionRequest ∉ before ∧ t = lastThreshold before

private theorem watched_step {zlib : Zlib} {login : Option (Text × Option Uuid)}
    {backendStream : Bytes} {s s' : Sniff} {e : SniffEvent} {frames : List Bytes}
    (uuid : ∃ name uuid, login = some (name, some uuid))
    (watched : s.Watched zlib backendStream frames) (answers : s.Answers zlib login e)
    (stepped : s.step zlib e = some s') : ∃ frames', s'.Watched zlib backendStream frames' := by
  have running := step_running stepped
  rcases step_answers uuid answers stepped with
    ⟨toClient, remainder, threshold, running'⟩ | ⟨frame, isFrame, handed, sent, stays, after⟩
  -- no frame was forwarded, so nothing new was said
  · refine ⟨frames, watched.isFrame, ?_, ?_, ?_, ?_, ?_, ?_⟩
    · rw [toClient, watched.forwarded]
    · rw [toClient, remainder, watched.sent]
    · intro _
      rw [threshold, watched.threshold running]
    · exact fun _ => watched.undecided running
    · simp [running']
    · simp [running']
  -- one more frame, read with the threshold that the packets before it have set
  · have packets : loginPackets zlib (-1) (frames ++ [frame]) =
        loginPackets zlib (-1) frames ++ [loginPacket zlib s.compressionThreshold frame] := by
      rw [loginPackets_concat, watched.threshold running]
      rfl
    have before := watched.undecided running
    have inForce := watched.threshold running
    -- from here on only the packet matters, not how it was read
    generalize loginPacket zlib s.compressionThreshold frame = packet at stays after packets
    refine ⟨frames ++ [frame], ?_, ?_, ?_, ?_, ?_, ?_, ?_⟩
    · intro f member
      rcases List.mem_append.mp member with old | new
      · exact watched.isFrame f old
      · rw [List.mem_singleton.mp new]
        exact isFrame
    · rw [handed, watched.forwarded]
      simp
    · rw [handed, List.append_assoc, sent, watched.sent]
    · intro goesOn
      rw [after] at goesOn ⊢
      rw [packets, lastThreshold, List.foldl_append, ← lastThreshold, ← inForce]
      cases packet <;> rfl
    · intro goesOn
      rw [after] at goesOn
      rw [packets, List.mem_append, not_or]
      refine ⟨before, ?_⟩
      cases packet with
      | encryptionRequest => cases goesOn
      | _ => simp
    · rw [after]
      cases packet with
      | disconnect => exact absurd rfl stays
      | _ => simp [conclude, LoginPacket.verdict]
    · intro t plain
      rw [after] at plain
      cases packet with
      | loginSuccess =>
        refine ⟨_, packets, before, ?_⟩
        simp only [conclude, LoginPacket.verdict, Option.some.injEq, Prod.mk.injEq] at plain
        rw [← plain.1, inForce]
      | _ => simp [conclude, LoginPacket.verdict] at plain

/-- In a run whose events never end the sniff without an answer, a session that is
stored as unencrypted, or that a packet may be written into, tells the truth about the
connection in every state. -/
theorem sniff_truthful (zlib : Zlib) (login : Option (Text × Option Uuid)) (host : Text)
    (protocolVersion : Int32) (client : BufferedStream) (toBackend : Writer)
    (backendStream : Bytes) (events : List SniffEvent)
    (answers : Machine.Guarded (step zlib) (Answers zlib login)
      (start ⟨client, .new backendStream, .new, toBackend⟩) events) :
    Machine.Always (step zlib) (Truthful zlib login host protocolVersion backendStream)
      (start ⟨client, .new backendStream, .new, toBackend⟩) events := by
  have watched : Machine.Always (step zlib)
      (fun s => (∃ name uuid, login = some (name, some uuid)) →
        ∃ frames, s.Watched zlib backendStream frames)
      (start ⟨client, .new backendStream, .new, toBackend⟩) events := by
    refine Machine.always_of_guarded ?_ ?_ answers
    · intro s e s' held now stepped uuid
      obtain ⟨frames, watched⟩ := held uuid
      exact watched_step uuid watched now stepped
    · intro uuid
      exact ⟨[], by simp, rfl, rfl, fun _ => rfl, by simp [loginPackets], by simp [start],
        by simp [start]⟩
  -- a stored session needs a UUID, so the run was watched from its start
  refine watched.imp fun s held result session returned stored plain => ?_
  obtain ⟨name, uuid, rfl⟩ : ∃ name uuid, login = some (name, some uuid) := by
    simp only [storeSession] at stored
    split at stored
    · exact ⟨_, _, rfl⟩
    · cases stored
  obtain ⟨frames, watched⟩ := held ⟨name, uuid, rfl⟩
  cases result with
  | none => exact absurd returned watched.answered
  | some answer =>
    obtain ⟨t, encrypted⟩ := answer
    simp only [storeSession, Option.getD_some, Option.some.injEq] at stored
    subst stored
    have isPlain : encrypted = false := by
      rcases plain with plain | inject
      · exact plain
      · simp only [canInjectPacket, Bool.and_eq_true, Bool.not_eq_true'] at inject
        exact inject.1
    subst isPlain
    obtain ⟨before, packets, none, inForce⟩ := watched.unencrypted t returned
    refine ⟨frames, watched.isFrame, watched.forwarded, ?_, before, packets, none, inForce⟩
    exact ⟨_, watched.sent⟩

/-- A codec for connections on which nothing is large enough to be compressed. -/
def uncompressed : Zlib := ⟨id, fun bytes _ => .ok bytes⟩

def steveLogin : Option (Text × Option Uuid) := some ("Steve".toList, some Logins.steveUuid)

/-- Set Compression to 256, then a Login Success below the threshold. -/
def compressedLogin : Bytes := [0x03, 0x03, 0x80, 0x02, 0x02, 0x00, 0x02]

def compressedLoginEvents : List SniffEvent :=
  [.backendFrame [.ready 2] .all, .clientRead (.ready 2) .all, .backendFrame [.ready 3] .all,
    .backendFrame [.ready 9] .all]

theorem compressed_login_truthful :
    (Machine.run (step uncompressed) (start ⟨.new [0x01, 0x02], .new compressedLogin, .new, .new⟩)
        compressedLoginEvents).bind Sniff.returned = some (some (256, false)) ∧
      Machine.Always (step uncompressed)
        (Truthful uncompressed steveLogin "mc.example".toList 776 compressedLogin)
        (start ⟨.new [0x01, 0x02], .new compressedLogin, .new, .new⟩) compressedLoginEvents := by
  refine ⟨rfl, ?_⟩
  apply sniff_truthful
  refine (Machine.guarded_cons_iff rfl).mpr ⟨fun _ => trivial, ?_⟩
  refine (Machine.guarded_cons_iff rfl).mpr ⟨fun _ => ⟨rfl, rfl⟩, ?_⟩
  refine (Machine.guarded_cons_iff rfl).mpr ⟨fun _ => ⟨by decide, rfl, rfl⟩, ?_⟩
  refine (Machine.guarded_cons_iff rfl).mpr ⟨fun _ => ⟨by decide, rfl, rfl⟩, ?_⟩
  trivial

/-- A backend that asks for encryption after more than ten seconds is recorded as an
unencrypted one. -/
theorem slow_backend_not_truthful :
    ¬ Machine.Always (step uncompressed)
      (Truthful uncompressed steveLogin "mc.example".toList 776 [0x01, 0x01])
      (start ⟨.new [], .new [0x01, 0x01], .new, .new⟩) [.timeout] := by
  intro always
  have last := ((Machine.always_cons_iff rfl).mp always).2
  obtain ⟨frames, isFrame, forwarded, -, before, packets, -⟩ := last none _ rfl rfl (Or.inl rfl)
  -- nothing was forwarded, so there is no frame to have said it
  cases frames with
  | nil => simp [loginPackets] at packets
  | cons f frames =>
    have nonempty := (isFrame f (by simp)).nonempty
    simp [start, conclude, Writer.handed, Writer.new, nonempty] at forwarded

end Sniff

end MCGate
