import MCGate.Protocol.Handshake
import MCGate.Std.Io

/-!
# The per-connection read buffer

`BufferedStream` keeps what was read past the end of a framed read for the next
one. Its three readers move the same `(buf, pos)` pair in different ways:
`readHandshake` and `readFrame` loop over inner reads, `pollRead` drains the
buffer before it touches the inner stream. Each call takes the arrivals that the
inner stream answers its reads with. The position never leaves the buffer, which
the type carries.
-/
namespace MCGate

structure BufferedStream where
  /-- What the inner stream has still to deliver. -/
  inner : Bytes
  buf : Bytes
  pos : Nat
  pos_le : pos ≤ buf.length
  deriving DecidableEq, Repr

inductive HandshakeError where
  | io (e : IoError)
  | eof
  | malformed (reason : String)
  deriving DecidableEq, Repr

namespace BufferedStream

def new (inner : Bytes) : BufferedStream := ⟨inner, [], 0, Nat.le_refl _⟩

def unread (s : BufferedStream) : Bytes := s.buf.drop s.pos

/-- `self.pos += n`, for bytes that are there. -/
def advance (s : BufferedStream) (n : Nat) (there : n ≤ s.unread.length) : BufferedStream where
  inner := s.inner
  buf := s.buf
  pos := s.pos + n
  pos_le := by
    have := s.pos_le
    simp only [unread, List.length_drop] at there
    omega

/-- `fill_more`. A failed read leaves the buffer alone. -/
def fillMore (s : BufferedStream) (a : Arrival) : Except IoError (Nat × BufferedStream) :=
  match receive s.inner 4096 a with
  | .error e => .error e
  | .ok (chunk, rest) => .ok (chunk.length, {
      inner := rest, buf := s.buf ++ chunk, pos := s.pos
      pos_le := by have := s.pos_le; rw [List.length_append]; omega })

end BufferedStream

theorem rawFrame_length_le {buf : Bytes} {h : Handshake} (parsed : tryParse buf = .complete h) :
    h.rawFrame.length ≤ buf.length := by
  obtain ⟨f, -, rfl⟩ := tryParse_complete_iff.mp parsed
  exact List.length_take_le' ..

namespace BufferedStream

def readHandshake (s : BufferedStream) (arrivals : List Arrival) :
    Poll (Except HandshakeError Handshake) × BufferedStream :=
  match parsed : tryParse s.unread with
  | .complete h => (.ready (.ok h), s.advance h.rawFrame.length (rawFrame_length_le parsed))
  | .malformed reason => (.ready (.error (.malformed reason)), s)
  | .incomplete =>
    match arrivals with
    | [] => (.pending, s)
    | a :: rest =>
      match s.fillMore a with
      | .error e => (.ready (.error (.io e)), s)
      | .ok (0, s') => (.ready (.error .eof), s')
      | .ok (_, s') =>
        -- the cap comes before the next parse, so it also meets a handshake that is complete
        if s'.buf.length - s'.pos > 1024 then
          (.ready (.error (.malformed "handshake exceeded maximum size without completing")), s')
        else readHandshake s' rest

/-- What the loop of `read_frame` finds at the front of the buffer. -/
inductive FrameCheck where
  | frame (total : Nat)
  | outOfRange (length : Int32)
  | needMore
  deriving DecidableEq, Repr

/-- The `if let Ok(..) = read_var_int(self.unread())` block of `read_frame`. A length
VarInt that failed for good takes the same way out as one that is incomplete. -/
def checkFrame (unread : Bytes) (maxLen : Int32) : FrameCheck :=
  match readVarInt unread with
  | .error _ => .needMore
  | .ok (length, headerLen) =>
    if ¬ (0 ≤ length ∧ length ≤ maxLen) then .outOfRange length
    else if headerLen + length.toNatClampNeg ≤ unread.length then
      .frame (headerLen + length.toNatClampNeg)
    else .needMore

theorem checkFrame_total_le {unread : Bytes} {maxLen : Int32} {total : Nat}
    (found : checkFrame unread maxLen = .frame total) : total ≤ unread.length := by
  simp only [checkFrame] at found
  split at found
  · cases found
  · split at found
    · cases found
    · split at found
      · cases found
        assumption
      · cases found

def readFrame (s : BufferedStream) (maxLen : Int32) (arrivals : List Arrival) :
    Poll (Except IoError Bytes) × BufferedStream :=
  match found : checkFrame s.unread maxLen with
  | .outOfRange length =>
    (.ready (.error ⟨.invalidData, s!"frame length {length} out of range"⟩), s)
  | .frame total =>
    (.ready (.ok (s.unread.take total)), s.advance total (checkFrame_total_le found))
  | .needMore =>
    match arrivals with
    | [] => (.pending, s)
    | a :: rest =>
      match s.fillMore a with
      | .error e => (.ready (.error e), s)
      | .ok (0, s') =>
        (.ready (.error ⟨.unexpectedEof, "connection closed before frame completed"⟩), s')
      | .ok (_, s') => readFrame s' maxLen rest

/-- `poll_read` into an output buffer with room for `cap` bytes. `arrival` is the inner
stream's answer, `none` when it has nothing yet. -/
def pollRead (s : BufferedStream) (cap : Nat) (arrival : Option Arrival) :
    Poll (Except IoError Bytes) × BufferedStream :=
  if s.pos < s.buf.length then
    -- buffered bytes are handed out alone, even where the inner stream has more
    let n := min cap (s.buf.length - s.pos)
    let out := (s.buf.drop s.pos).take n
    -- a drained buffer is cleared
    if s.pos + n = s.buf.length then (.ready (.ok out), ⟨s.inner, [], 0, Nat.le_refl _⟩)
    else (.ready (.ok out), s.advance n (by simp only [unread, List.length_drop, n]; omega))
  else match arrival with
    | none => (.pending, s)
    | some a =>
      match receive s.inner cap a with
      | .error e => (.ready (.error e), s)
      | .ok (out, rest) => (.ready (.ok out), { s with inner := rest })

/-! ### What each operation does to the stream -/

/-- Everything a caller can still be handed: the unread buffer, then the inner stream. -/
def remainder (s : BufferedStream) : Bytes := s.unread ++ s.inner

@[simp] theorem new_unread (b : Bytes) : (new b).unread = [] := rfl

@[simp] theorem new_remainder (b : Bytes) : (new b).remainder = b := rfl

@[simp] theorem advance_unread (s : BufferedStream) (n : Nat) (there : n ≤ s.unread.length) :
    (s.advance n there).unread = s.unread.drop n := by
  simp [advance, unread]

@[simp] theorem advance_inner (s : BufferedStream) (n : Nat) (there : n ≤ s.unread.length) :
    (s.advance n there).inner = s.inner := rfl

private theorem advance_remainder (s : BufferedStream) (n : Nat) (there : n ≤ s.unread.length) :
    s.unread.take n ++ (s.advance n there).remainder = s.remainder := by
  rw [remainder, remainder, advance_unread, advance_inner, ← List.append_assoc,
    List.take_append_drop]

theorem unread_length (s : BufferedStream) : s.unread.length = s.buf.length - s.pos := by
  rw [unread, List.length_drop]

/-- A fill moves a chunk of at most 4096 bytes from the inner stream to the buffer. -/
theorem fillMore_ok {s s' : BufferedStream} {a : Arrival} {n : Nat}
    (filled : s.fillMore a = .ok (n, s')) :
    ∃ chunk, chunk.length = n ∧ n ≤ 4096 ∧ s'.unread = s.unread ++ chunk ∧
      s.inner = chunk ++ s'.inner := by
  simp only [fillMore] at filled
  split at filled
  · cases filled
  next chunk rest received =>
    simp only [Except.ok.injEq, Prod.mk.injEq] at filled
    obtain ⟨rfl, rfl⟩ := filled
    refine ⟨chunk, rfl, receive_length_le received, ?_, (receive_split received).symm⟩
    simp only [unread]
    rw [List.drop_append_of_le_length s.pos_le]

theorem fillMore_remainder {s s' : BufferedStream} {a : Arrival} {n : Nat}
    (filled : s.fillMore a = .ok (n, s')) : s'.remainder = s.remainder := by
  obtain ⟨chunk, -, -, unread, inner⟩ := fillMore_ok filled
  rw [remainder, remainder, unread, inner, List.append_assoc]

/-- A chunk that the socket offers and that fits is moved as a whole. -/
theorem fillMore_chunk {s : BufferedStream} {chunk rest : Bytes} (inner : s.inner = chunk ++ rest)
    (nonempty : 1 ≤ chunk.length) (fits : chunk.length ≤ 4096) :
    ∃ s', s.fillMore (.ready chunk.length) = .ok (chunk.length, s') ∧
      s'.unread = s.unread ++ chunk ∧ s'.inner = rest := by
  have received := @receive_chunk chunk rest _ nonempty fits
  rw [← inner] at received
  simp only [fillMore, received]
  refine ⟨_, rfl, ?_, rfl⟩
  simp only [unread]
  rw [List.drop_append_of_le_length s.pos_le]

theorem rawFrame_eq_take {buf : Bytes} {h : Handshake} (parsed : tryParse buf = .complete h) :
    h.rawFrame = buf.take h.rawFrame.length := by
  obtain ⟨f, holds, rfl⟩ := tryParse_complete_iff.mp parsed
  simp [HandshakeFields.handshake, Nat.min_eq_left holds.frame]

/-- The bytes a finished `read_handshake` hands out. -/
def handshakeBytes : Poll (Except HandshakeError Handshake) → Bytes
  | .ready (.ok h) => h.rawFrame
  | _ => []

/-- The bytes a finished `read_frame` or `poll_read` hands out. -/
def readBytes : Poll (Except IoError Bytes) → Bytes
  | .ready (.ok bytes) => bytes
  | _ => []

/-- One round of `read_frame`: nothing found, a fill that brought bytes, and again. -/
theorem readFrame_fill {s s' : BufferedStream} {maxLen : Int32} {a : Arrival} {n : Nat}
    (found : checkFrame s.unread maxLen = .needMore) (filled : s.fillMore a = .ok (n, s'))
    (some : 1 ≤ n) (rest : List Arrival) :
    s.readFrame maxLen (a :: rest) = s'.readFrame maxLen rest := by
  obtain ⟨k, rfl⟩ : ∃ k, n = k + 1 := ⟨n - 1, by omega⟩
  rw [readFrame.eq_def]
  split <;> simp_all

/-! ### No byte is lost, duplicated or reordered -/

theorem readHandshake_remainder (s : BufferedStream) (arrivals : List Arrival) :
    handshakeBytes (s.readHandshake arrivals).1 ++ (s.readHandshake arrivals).2.remainder =
      s.remainder := by
  fun_induction readHandshake s arrivals with
  | case1 arrivals s h parsed =>
    have moved := advance_remainder s _ (rawFrame_length_le parsed)
    rwa [← rawFrame_eq_take parsed] at moved
  | case2 => rfl
  | case3 => rfl
  | case4 => rfl
  | case5 s parsed a rest s' filled => exact fillMore_remainder filled
  | case6 s parsed a rest n s' some filled large => exact fillMore_remainder filled
  -- a fill only moves the border between the buffer and the inner stream
  | case7 s parsed a rest n s' some filled small ih => rw [ih, fillMore_remainder filled]

theorem readFrame_remainder (s : BufferedStream) (maxLen : Int32) (arrivals : List Arrival) :
    readBytes (s.readFrame maxLen arrivals).1 ++ (s.readFrame maxLen arrivals).2.remainder =
      s.remainder := by
  fun_induction readFrame s maxLen arrivals with
  | case1 => rfl
  | case2 arrivals s total found => exact advance_remainder s total (checkFrame_total_le found)
  | case3 => rfl
  | case4 => rfl
  | case5 s found a rest s' filled => exact fillMore_remainder filled
  | case6 s found a rest n s' some filled ih => rw [ih, fillMore_remainder filled]

theorem pollRead_remainder (s : BufferedStream) (cap : Nat) (arrival : Option Arrival) :
    readBytes (s.pollRead cap arrival).1 ++ (s.pollRead cap arrival).2.remainder =
      s.remainder := by
  fun_cases pollRead s cap arrival with
  | case1 arrival buffered n out drained =>
    -- the buffer is cleared only when the caller got all of it
    have all : out = s.unread := by
      refine List.take_of_length_le ?_
      rw [List.length_drop]
      omega
    rw [readBytes, all]
    rfl
  | case2 arrival buffered n out left =>
    exact advance_remainder s n (by rw [unread_length]; omega)
  | case3 => rfl
  | case4 => rfl
  | case5 empty a out rest received =>
    have nothing : s.unread = [] := by
      rw [unread, List.drop_eq_nil_iff]
      omega
    have left : unread { s with inner := rest } = [] := nothing
    rw [readBytes, remainder, remainder, left, nothing]
    exact receive_split received

/-- One call on the stream, with the inner reads it gets before it returns or its
future is dropped. -/
inductive Call where
  | readHandshake (arrivals : List Arrival)
  | readFrame (maxLen : Int32) (arrivals : List Arrival)
  | pollRead (cap : Nat) (arrival : Option Arrival)
  deriving Repr

/-- The bytes a call hands out and the stream after it. -/
def call (s : BufferedStream) : Call → Bytes × BufferedStream
  | .readHandshake arrivals =>
    (handshakeBytes (s.readHandshake arrivals).1, (s.readHandshake arrivals).2)
  | .readFrame maxLen arrivals =>
    (readBytes (s.readFrame maxLen arrivals).1, (s.readFrame maxLen arrivals).2)
  | .pollRead cap arrival => (readBytes (s.pollRead cap arrival).1, (s.pollRead cap arrival).2)

/-- Everything a sequence of calls hands out, in order, and the stream after it. -/
def calls (s : BufferedStream) : List Call → Bytes × BufferedStream
  | [] => ([], s)
  | c :: cs => ((s.call c).1 ++ ((s.call c).2.calls cs).1, ((s.call c).2.calls cs).2)

private theorem call_remainder (s : BufferedStream) (c : Call) :
    (s.call c).1 ++ (s.call c).2.remainder = s.remainder := by
  cases c with
  | readHandshake arrivals => exact readHandshake_remainder s arrivals
  | readFrame maxLen arrivals => exact readFrame_remainder s maxLen arrivals
  | pollRead cap arrival => exact pollRead_remainder s cap arrival

private theorem calls_remainder (s : BufferedStream) (cs : List Call) :
    (s.calls cs).1 ++ (s.calls cs).2.remainder = s.remainder := by
  induction cs generalizing s with
  | nil => rfl
  | cons c cs ih => rw [calls, List.append_assoc, ih, call_remainder]

/-- Whatever is called, in whatever order, with whatever errors and dropped futures:
the bytes handed out, the unread buffer and the rest of the inner stream are the
original stream. -/
theorem calls_conserve_stream (stream : Bytes) (cs : List Call) :
    ((new stream).calls cs).1 ++ ((new stream).calls cs).2.unread ++
      ((new stream).calls cs).2.inner = stream := by
  -- a fresh stream has nothing buffered, so its remainder is the whole stream
  rw [List.append_assoc]
  exact calls_remainder (new stream) cs

end BufferedStream

end MCGate
