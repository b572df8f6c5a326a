import MCGate.Lib.Decoder
import MCGate.Net.ReadFrame
import MCGate.Protocol.ProxyProtocolTcp

/-!
# What the start of a connection says

A gate reads a PROXY header, if it is configured to, then a handshake and a Login Start, each
with a reader of its own and in whatever chunks they arrive. What it comes to know does not
depend on the chunks: the stream alone says who the client is and what it wants. `decodeLogin`
tells what a stream says, and the readers find nothing else in it. With a header and without
one are two languages that have no stream in common, so a gate that is configured for the wrong
one reads nothing.
-/
namespace MCGate

open Reader ProxyProtocol BufferedStream

/-! ### The stream -/

/-- The address in the header, or the one of the peer. -/
def decodeSource (expects : Bool) (peer : SocketAddr) : Decoder UInt8 SocketAddr :=
  if expects then fun stream =>
    match parseProxyProtocolHeader stream with
    | .ok (addr, n) =>
      -- sixteen bytes are taken even where the header is shorter
      if max 16 n ≤ stream.length then some (addr.getD peer, stream.drop (max 16 n)) else none
    | .error _ => none
  else pure peer

def decodeHandshake : Decoder UInt8 Handshake := fun stream =>
  match tryParse stream with
  | .complete h => some (h, stream.drop h.rawFrame.length)
  | _ => none

def decodeFrame (maxLen : Int32) : Decoder UInt8 Bytes := fun stream =>
  match checkFrame stream maxLen with
  | .frame total => some (stream.take total, stream.drop total)
  | _ => none

/-- Who the client is and what it asks for. -/
structure Hello where
  addr : SocketAddr
  handshake : Handshake
  deriving DecidableEq, Repr

def decodeHello (expects : Bool) (peer : SocketAddr) : Decoder UInt8 Hello := do
  let addr ← decodeSource expects peer
  let handshake ← decodeHandshake
  return ⟨addr, handshake⟩

/-- The two frames that a login starts with. -/
def decodeFrames : Decoder UInt8 (Handshake × Bytes) := do
  let handshake ← decodeHandshake
  let loginStart ← decodeFrame MAX_PACKET_BYTES
  return (handshake, loginStart)

def decodeLogin (expects : Bool) (peer : SocketAddr) : Decoder UInt8 (Hello × Bytes) := do
  let hello ← decodeHello expects peer
  let loginStart ← decodeFrame MAX_PACKET_BYTES
  return (hello, loginStart)

variable {stream rest : Bytes} {expects : Bool} {peer : SocketAddr}

theorem decodeHandshake_eq_some {h : Handshake} :
    decodeHandshake.run stream = some (h, rest) ↔
      tryParse stream = .complete h ∧ rest = stream.drop h.rawFrame.length := by
  simp only [decodeHandshake, StateT.run]
  cases tryParse stream with
  | complete h' =>
    simp only [Option.some.injEq, Prod.mk.injEq, ParseOutcome.complete.injEq]
    constructor
    · rintro ⟨rfl, rfl⟩
      exact ⟨rfl, rfl⟩
    · rintro ⟨rfl, rfl⟩
      exact ⟨rfl, rfl⟩
  | incomplete => simp
  | malformed reason => simp

theorem decodeFrame_eq_some {maxLen : Int32} {frame : Bytes} :
    (decodeFrame maxLen).run stream = some (frame, rest) ↔
      ∃ total, checkFrame stream maxLen = .frame total ∧ frame = stream.take total ∧
        rest = stream.drop total := by
  simp only [decodeFrame, StateT.run]
  cases checkFrame stream maxLen with
  | frame total => simp [eq_comm]
  | outOfRange length => simp
  | needMore => simp

theorem decodeSource_true {addr : SocketAddr} :
    (decodeSource true peer).run stream = some (addr, rest) ↔
      ∃ source n, parseProxyProtocolHeader stream = .ok (source, n) ∧ max 16 n ≤ stream.length ∧
        addr = source.getD peer ∧ rest = stream.drop (max 16 n) := by
  simp only [decodeSource, if_true, StateT.run]
  cases parseProxyProtocolHeader stream with
  | error e => simp
  | ok read =>
    obtain ⟨source, n⟩ := read
    simp only [Except.ok.injEq, Prod.mk.injEq, Option.ite_none_right_eq_some, Option.some.injEq]
    constructor
    · rintro ⟨inside, rfl, rfl⟩
      exact ⟨source, n, ⟨rfl, rfl⟩, inside, rfl, rfl⟩
    · rintro ⟨_, _, ⟨rfl, rfl⟩, inside, rfl, rfl⟩
      exact ⟨inside, rfl, rfl⟩

theorem decodeSource_false {addr : SocketAddr} :
    (decodeSource false peer).run stream = some (addr, rest) ↔ addr = peer ∧ rest = stream := by
  simp only [decodeSource, Bool.false_eq_true, if_false, StateT.run_pure, Option.pure_def,
    Option.some.injEq, Prod.mk.injEq, eq_comm]

theorem decodeHello_eq_some {hello : Hello} :
    (decodeHello expects peer).run stream = some (hello, rest) ↔
      ∃ middle, (decodeSource expects peer).run stream = some (hello.addr, middle) ∧
        decodeHandshake.run middle = some (hello.handshake, rest) := by
  simp only [decodeHello, Decoder.run_bind_eq_some, StateT.run_pure, Option.pure_def,
    Option.some.injEq, Prod.mk.injEq]
  constructor
  · rintro ⟨addr, middle, source, h, _, handshake, rfl, rfl⟩
    exact ⟨middle, source, handshake⟩
  · rintro ⟨middle, source, handshake⟩
    exact ⟨hello.addr, middle, source, hello.handshake, rest, handshake, rfl, rfl⟩

theorem decodeLogin_eq_some {hello : Hello} {loginStart : Bytes} :
    (decodeLogin expects peer).run stream = some ((hello, loginStart), rest) ↔
      ∃ middle, (decodeHello expects peer).run stream = some (hello, middle) ∧
        (decodeFrame MAX_PACKET_BYTES).run middle = some (loginStart, rest) := by
  simp only [decodeLogin, Decoder.run_bind_eq_some, StateT.run_pure, Option.pure_def,
    Option.some.injEq, Prod.mk.injEq]
  constructor
  · rintro ⟨_, middle, read, _, _, frame, ⟨rfl, rfl⟩, rfl⟩
    exact ⟨middle, read, frame⟩
  · rintro ⟨middle, read, frame⟩
    exact ⟨hello, middle, read, loginStart, rest, frame, ⟨rfl, rfl⟩, rfl⟩

theorem decodeFrames_eq_some {h : Handshake} {loginStart : Bytes} :
    decodeFrames.run stream = some ((h, loginStart), rest) ↔
      ∃ middle, decodeHandshake.run stream = some (h, middle) ∧
        (decodeFrame MAX_PACKET_BYTES).run middle = some (loginStart, rest) := by
  simp only [decodeFrames, Decoder.run_bind_eq_some, StateT.run_pure, Option.pure_def,
    Option.some.injEq, Prod.mk.injEq]
  constructor
  · rintro ⟨_, middle, read, _, _, frame, ⟨rfl, rfl⟩, rfl⟩
    exact ⟨middle, read, frame⟩
  · rintro ⟨middle, read, frame⟩
    exact ⟨h, middle, read, loginStart, rest, frame, ⟨rfl, rfl⟩, rfl⟩

/-- A login is a source and the two frames. -/
theorem decodeLogin_iff {hello : Hello} {loginStart : Bytes} :
    (decodeLogin expects peer).run stream = some ((hello, loginStart), rest) ↔
      ∃ middle, (decodeSource expects peer).run stream = some (hello.addr, middle) ∧
        decodeFrames.run middle = some ((hello.handshake, loginStart), rest) := by
  simp only [decodeLogin_eq_some, decodeHello_eq_some, decodeFrames_eq_some]
  constructor
  · rintro ⟨middle, ⟨front, source, handshake⟩, frame⟩
    exact ⟨front, source, middle, handshake, frame⟩
  · rintro ⟨front, source, middle, handshake, frame⟩
    exact ⟨middle, ⟨front, source, handshake⟩, frame⟩

/-! ### What follows changes nothing -/

private theorem stable_decodeHandshake : decodeHandshake.Stable := by
  intro stream h rest decoded more
  obtain ⟨parsed, rfl⟩ := decodeHandshake_eq_some.mp decoded
  apply decodeHandshake_eq_some.mpr
  refine ⟨tryParse_complete_append parsed more, ?_⟩
  rw [List.drop_append_of_le_length (rawFrame_length_le parsed)]

private theorem checkFrame_append {maxLen : Int32} {total : Nat}
    (found : checkFrame stream maxLen = .frame total) (more : Bytes) :
    checkFrame (stream ++ more) maxLen = .frame total := by
  have within := checkFrame_total_le found
  unfold checkFrame at found ⊢
  cases read : readVarInt stream with
  | error e =>
    rw [read] at found
    cases found
  | ok length =>
    obtain ⟨length, headerLen⟩ := length
    have longer := @readVarInt_append stream (by simp [read]) more
    rw [read] at found longer
    rw [longer]
    dsimp only at found ⊢
    split at found
    · cases found
    next range =>
      rw [if_neg range]
      split at found
      next fits =>
        cases found
        rw [if_pos (by rw [List.length_append]; omega)]
      · cases found

private theorem stable_decodeFrame (maxLen : Int32) : (decodeFrame maxLen).Stable := by
  intro stream frame rest decoded more
  obtain ⟨total, found, rfl, rfl⟩ := decodeFrame_eq_some.mp decoded
  have within := checkFrame_total_le found
  apply decodeFrame_eq_some.mpr
  refine ⟨total, checkFrame_append found more, ?_, ?_⟩
  · rw [List.take_append_of_le_length within]
  · rw [List.drop_append_of_le_length within]

private theorem stable_decodeSource (expects : Bool) (peer : SocketAddr) :
    (decodeSource expects peer).Stable := by
  cases expects with
  | false => exact Decoder.stable_pure peer
  | true =>
    intro stream addr rest decoded more
    obtain ⟨source, n, parsed, inside, rfl, rfl⟩ := decodeSource_true.mp decoded
    apply decodeSource_true.mpr
    refine ⟨source, n, ?_, ?_, rfl, ?_⟩
    · have longer := parse_local.stable parsed (stream.drop n ++ more)
      rwa [← List.append_assoc, List.take_append_drop] at longer
    · rw [List.length_append]
      omega
    · rw [List.drop_append_of_le_length inside]

theorem stable_decodeHello (expects : Bool) (peer : SocketAddr) :
    (decodeHello expects peer).Stable := by
  apply (stable_decodeSource expects peer).bind
  intro addr
  exact stable_decodeHandshake.bind fun _ => Decoder.stable_pure _

private theorem stable_decodeLogin (expects : Bool) (peer : SocketAddr) :
    (decodeLogin expects peer).Stable := by
  apply (stable_decodeHello expects peer).bind
  intro hello
  exact (stable_decodeFrame MAX_PACKET_BYTES).bind fun _ => Decoder.stable_pure _

/-! ### The readers find nothing else -/

theorem readHeader_decodes {addr : Option SocketAddr} {arrivals left : List Arrival}
    (read : readProxyProtocolHeader stream arrivals = (.ready (.ok addr), rest, left))
    (peer : SocketAddr) :
    (decodeSource true peer).run stream = some (addr.getD peer, rest) := by
  obtain ⟨n, parsed, inside, rfl⟩ := readHeader_ok read
  exact decodeSource_true.mpr ⟨addr, n, parsed, inside, rfl, rfl⟩

theorem readHandshake_decodes {s s' : BufferedStream} {h : Handshake} {arrivals : List Arrival}
    (read : s.readHandshake arrivals = (.ready (.ok h), s')) :
    decodeHandshake.run s.remainder = some (h, s'.remainder) := by
  fun_induction readHandshake s arrivals with
  | case1 arrivals s h' parsed =>
    cases read
    -- the buffer decides, and what is not in it yet is left over
    have buffered : decodeHandshake.run s.unread = some (h, s.unread.drop h.rawFrame.length) :=
      decodeHandshake_eq_some.mpr ⟨parsed, rfl⟩
    have whole := stable_decodeHandshake _ _ _ buffered s.inner
    rwa [remainder, remainder, advance_unread, advance_inner]
  | case2 | case3 | case4 | case5 | case6 => cases read
  | case7 s parsed a rest n s₁ some filled small ih =>
    rw [← fillMore_remainder filled]
    exact ih read

theorem readFrame_decodes {s s' : BufferedStream} {maxLen : Int32} {frame : Bytes}
    {arrivals : List Arrival} (read : s.readFrame maxLen arrivals = (.ready (.ok frame), s')) :
    (decodeFrame maxLen).run s.remainder = some (frame, s'.remainder) := by
  fun_induction readFrame s maxLen arrivals with
  | case2 arrivals s total found =>
    cases read
    have buffered : (decodeFrame maxLen).run s.unread =
        some (s.unread.take total, s.unread.drop total) :=
      decodeFrame_eq_some.mpr ⟨total, found, rfl, rfl⟩
    have whole := stable_decodeFrame maxLen _ _ _ buffered s.inner
    rwa [remainder, remainder, advance_unread, advance_inner]
  | case1 | case3 | case4 | case5 => cases read
  | case6 s found a rest n s₁ some filled ih =>
    rw [← fillMore_remainder filled]
    exact ih read

/-! ### The readers find it in whatever pieces it arrives -/

/-- A buffer that still waits for bytes of the inner stream gets some with the next arrival. -/
theorem fillMore_ready {s : BufferedStream} (left : s.inner ≠ []) (n : Nat) :
    ∃ k s', s.fillMore (.ready n) = .ok (k + 1, s') ∧ s'.remainder = s.remainder ∧
      s'.inner.length < s.inner.length ∧ s'.buf.length - s'.pos ≤ s.remainder.length := by
  obtain ⟨b, chunk, rest, received⟩ := receive_ready (by decide : 1 ≤ 4096) left n
  obtain ⟨s', filled⟩ : ∃ s', s.fillMore (.ready n) = .ok (chunk.length + 1, s') := by
    simp [fillMore, received]
  have kept := fillMore_remainder filled
  obtain ⟨out, size, -, -, inner⟩ := fillMore_ok filled
  refine ⟨chunk.length, s', filled, kept, ?_, ?_⟩
  · rw [inner, List.length_append]
    omega
  · rw [← kept, ← unread_length, remainder, List.length_append]
    exact Nat.le_add_right _ _

/-- In front of the end of a frame there is nothing to object to. -/
theorem checkFrame_front {maxLen : Int32} {total : Nat} {more : Bytes}
    (found : checkFrame (stream ++ more) maxLen = .frame total) :
    checkFrame stream maxLen = .frame total ∨ checkFrame stream maxLen = .needMore := by
  cases read : readVarInt stream with
  | error e => exact .inr (checkFrame_needMore_of_error read)
  | ok length =>
    obtain ⟨length, headerLen⟩ := length
    have longer := @readVarInt_append stream (by simp [read]) more
    rw [read] at longer
    simp only [checkFrame, longer] at found
    simp only [checkFrame, read]
    split at found
    · cases found
    next range =>
      rw [if_neg range]
      split at found
      · cases found
        split
        · exact .inl rfl
        · exact .inr rfl
      · cases found

theorem readFrame_ready {s : BufferedStream} {maxLen : Int32} {frame : Bytes}
    (decoded : (decodeFrame maxLen).run s.remainder = some (frame, rest)) (sizes : List Nat)
    (enough : s.inner.length ≤ sizes.length) :
    ∃ s', s.readFrame maxLen (sizes.map .ready) = (.ready (.ok frame), s') ∧
      s'.remainder = rest := by
  obtain ⟨total, found, rfl, rfl⟩ := decodeFrame_eq_some.mp decoded
  clear decoded
  -- every arrival brings a byte that the inner stream still has
  induction sizes generalizing s with
  | nil =>
    have all : s.inner = [] := List.eq_nil_of_length_eq_zero (Nat.le_zero.mp enough)
    have here : checkFrame s.unread maxLen = .frame total := by
      rw [remainder, all, List.append_nil] at found
      exact found
    have within := checkFrame_total_le here
    refine ⟨s.advance total within, ?_, ?_⟩
    · rw [readFrame.eq_def]
      split <;> simp_all [remainder]
    · rw [remainder, advance_unread, advance_inner, remainder, List.drop_append_of_le_length within]
  | cons n sizes ih =>
    rcases checkFrame_front found with here | waiting
    · have within := checkFrame_total_le here
      refine ⟨s.advance total within, ?_, ?_⟩
      · rw [readFrame.eq_def]
        split <;> simp_all [remainder, List.take_append_of_le_length]
      · rw [remainder, advance_unread, advance_inner, remainder,
          List.drop_append_of_le_length within]
    · have left : s.inner ≠ [] := by
        intro none
        rw [remainder, none, List.append_nil, waiting] at found
        cases found
      obtain ⟨k, s', filled, kept, fewer, -⟩ := fillMore_ready left n
      rw [List.length_cons] at enough
      rw [List.map_cons, readFrame_fill waiting filled (Nat.le_add_left 1 k)]
      rw [← kept] at found ⊢
      exact ih (by omega) found

/-! ### A header and a handshake have no stream in common -/

/-- A header starts with two bytes that are no length and packet id of a handshake. -/
theorem header_starts {source : Option SocketAddr} {n : Nat}
    (parsed : parseProxyProtocolHeader stream = .ok (source, n)) :
    [0x0D, 0x0A] <+: stream ∨ [0x50, 0x52] <+: stream := by
  rcases parse_ok parsed with ⟨signature, -, -⟩ | ⟨word, -⟩
  · exact .inl (List.IsPrefix.trans (by decide) signature)
  · exact .inr (List.IsPrefix.trans (by decide) word)

/-- The stream opens with a length and packet id 0. -/
def OpensPacket (stream : Bytes) : Prop :=
  ∃ lengthEnc length idEnc tail, Reads readVarInt lengthEnc length ∧ Reads readVarInt idEnc 0 ∧
    stream = lengthEnc ++ (idEnc ++ tail)

theorem opensPacket_of_tryParse {h : Handshake} (parsed : tryParse stream = .complete h) :
    OpensPacket stream := by
  obtain ⟨f, holds, -⟩ := tryParse_complete_iff.mp parsed
  obtain ⟨tail, fields⟩ := holds.fields
  rw [HandshakeFields.bytes, HandshakeFields.body, List.append_assoc, List.append_assoc] at fields
  exact ⟨f.lengthEnc, f.length, f.idEnc, _, f.length_reads, f.id_reads, fields.symm⟩

/-- Behind a length of one byte the packet id is the second byte. -/
theorem OpensPacket.second {length id : UInt8} (opens : OpensPacket stream)
    (starts : [length, id] <+: stream)
    (one : Reads readVarInt [length] (Int32.ofNat length.toNat))
    (two : Reads readVarInt [id] (Int32.ofNat id.toNat)) : Int32.ofNat id.toNat = 0 := by
  obtain ⟨lengthEnc, _, idEnc, tail, readsLength, readsId, split⟩ := opens
  obtain ⟨back, whole⟩ := starts
  have same : [length] ++ ([id] ++ back) = lengthEnc ++ (idEnc ++ tail) := by
    rw [← List.append_assoc]
    exact whole.trans split
  obtain ⟨-, same, -⟩ := one.unique readVarInt_local readsLength same
  exact (two.unique readVarInt_local readsId same).2.2

theorem OpensPacket.no_header (opens : OpensPacket stream) {source : Option SocketAddr} {n : Nat} :
    parseProxyProtocolHeader stream ≠ .ok (source, n) := by
  intro header
  rcases header_starts header with starts | starts
  · exact absurd (opens.second starts (by unfold Reads; decide) (by unfold Reads; decide))
      (by decide)
  · exact absurd (opens.second starts (by unfold Reads; decide) (by unfold Reads; decide))
      (by decide)

/-- No stream says something both with a header and without. -/
theorem decodeHello_exclusive {hello hello' : Hello} {rest' : Bytes} {peer' : SocketAddr}
    (withHeader : (decodeHello true peer).run stream = some (hello, rest))
    (without : (decodeHello false peer').run stream = some (hello', rest')) : False := by
  obtain ⟨middle, source, -⟩ := decodeHello_eq_some.mp withHeader
  obtain ⟨_, n, header, -⟩ := decodeSource_true.mp source
  obtain ⟨whole, peers, handshake⟩ := decodeHello_eq_some.mp without
  obtain ⟨-, rfl⟩ := decodeSource_false.mp peers
  have parsed := (decodeHandshake_eq_some.mp handshake).1
  exact (opensPacket_of_tryParse parsed).no_header header

/-- A front of a stream says the same as the stream, if it says anything. -/
theorem decodeHello_front {expects' : Bool} {peer : SocketAddr} {front rest' : Bytes}
    {hello hello' : Hello} (isFront : front <+: stream)
    (one : (decodeHello expects' peer).run front = some (hello, rest))
    (other : (decodeHello expects peer).run stream = some (hello', rest')) :
    expects' = expects ∧ hello = hello' ∧ rest <+: rest' := by
  obtain ⟨more, rfl⟩ := isFront
  have longer := stable_decodeHello _ _ _ _ _ one more
  by_cases same : expects' = expects
  · subst same
    rw [longer] at other
    cases other
    exact ⟨rfl, rfl, List.prefix_append _ _⟩
  · cases expects' with
    | true =>
      obtain rfl : expects = false := by simpa using Ne.symm same
      exact (decodeHello_exclusive longer other).elim
    | false =>
      obtain rfl : expects = true := by simpa using Ne.symm same
      exact (decodeHello_exclusive other longer).elim

theorem decodeLogin_front {expects' : Bool} {peer : SocketAddr} {front rest' : Bytes}
    {hello hello' : Hello} {loginStart loginStart' : Bytes} (isFront : front <+: stream)
    (one : (decodeLogin expects' peer).run front = some ((hello, loginStart), rest))
    (other : (decodeLogin expects peer).run stream = some ((hello', loginStart'), rest')) :
    expects' = expects ∧ hello = hello' ∧ loginStart = loginStart' := by
  obtain ⟨middle, read, -⟩ := decodeLogin_eq_some.mp one
  obtain ⟨middle', read', -⟩ := decodeLogin_eq_some.mp other
  obtain ⟨rfl, -⟩ := decodeHello_front isFront read read'
  have same := ((stable_decodeLogin _ _).agree isFront one other).1
  exact ⟨rfl, (Prod.mk.inj same).1, (Prod.mk.inj same).2⟩

end MCGate
