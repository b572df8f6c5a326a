import MCGate.Std.Text

/-!
# Sockets

The read side of a socket is the bytes the peer has still to deliver. How they
arrive is up to the network: each read that completes is answered by an
`Arrival`, which says how many bytes were there, or that the read failed. A list
of arrivals is a way of cutting the stream into read chunks; when it is
exhausted the reader is left waiting, which is also where its future can be
dropped.
-/
namespace MCGate

inductive IoErrorKind where
  | invalidData
  | unexpectedEof
  | timedOut
  | other
  deriving DecidableEq, Repr

/-- `std::io::Error` -/
structure IoError where
  kind : IoErrorKind
  message : String
  deriving DecidableEq, Repr

/-- `std::task::Poll` -/
inductive Poll (α : Type) where
  | pending
  | ready (value : α)
  deriving DecidableEq, Repr

/-- The answer of the socket to one read. -/
inductive Arrival where
  /-- `n` bytes are there. A socket whose stream has not ended never answers a read
  with nothing, so at least one is handed over; at the end the read returns none. -/
  | ready (n : Nat)
  | failed (e : IoError)
  deriving DecidableEq, Repr

/-- A `read` into a buffer of `cap` bytes: the chunk and what is left of the stream. -/
def receive (stream : Bytes) (cap : Nat) : Arrival → Except IoError (Bytes × Bytes)
  | .failed e => .error e
  | .ready n => .ok (stream.take (min (max n 1) cap), stream.drop (min (max n 1) cap))

theorem receive_split {stream : Bytes} {cap : Nat} {a : Arrival} {chunk rest : Bytes}
    (received : receive stream cap a = .ok (chunk, rest)) : chunk ++ rest = stream := by
  cases a with
  | failed e => cases received
  | ready n =>
    simp only [receive, Except.ok.injEq, Prod.mk.injEq] at received
    rw [← received.1, ← received.2, List.take_append_drop]

theorem receive_length_le {stream : Bytes} {cap : Nat} {a : Arrival} {chunk rest : Bytes}
    (received : receive stream cap a = .ok (chunk, rest)) : chunk.length ≤ cap := by
  cases a with
  | failed e => cases received
  | ready n =>
    simp only [receive, Except.ok.injEq, Prod.mk.injEq] at received
    rw [← received.1, List.length_take]
    omega

/-- A socket that offers a chunk that fits hands over the whole chunk. -/
theorem receive_chunk {chunk rest : Bytes} {cap : Nat} (nonempty : 1 ≤ chunk.length)
    (fits : chunk.length ≤ cap) :
    receive (chunk ++ rest) cap (.ready chunk.length) = .ok (chunk, rest) := by
  have size : min (max chunk.length 1) cap = chunk.length := by omega
  rw [receive, size, List.take_append_length, List.drop_append_length]

/-- A socket with bytes left hands over at least one. -/
theorem receive_ready {stream : Bytes} {cap : Nat} (room : 1 ≤ cap) (left : stream ≠ []) (n : Nat) :
    ∃ c chunk rest, receive stream cap (.ready n) = .ok (c :: chunk, rest) := by
  have some : 0 < stream.length := List.length_pos_iff.mpr left
  cases taken : stream.take (min (max n 1) cap) with
  | nil =>
    have := congrArg List.length taken
    rw [List.length_take, List.length_nil] at this
    omega
  | cons c chunk => exact ⟨c, chunk, _, by rw [receive, taken]⟩

end MCGate
