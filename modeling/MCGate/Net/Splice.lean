import MCGate.Net.BufferedStream

/-!
# A connection between a client and a backend

While a login is forwarded MCGate holds two sockets. Bytes move in both directions
at once: read from one socket's buffered stream, handed to the other one's writer.
A `Splice` is that pair, and it is `Faithful` when in each direction the bytes handed
on, followed by the bytes that can still be read, are the peer's original stream.
What a peer sends is cut into length-prefixed frames (`IsFrame`), which form a
prefix code.
-/
namespace MCGate

open Reader

/-! ### Frames -/

def WholeFrames (b : Bytes) : Prop := ∃ fs : List Bytes, (∀ f ∈ fs, IsFrame f) ∧ b = fs.flatten

private theorem BufferedStream.checkFrame_isFrame {unread : Bytes} {maxLen : Int32} {total : Nat}
    (found : checkFrame unread maxLen = .frame total) : IsFrame (unread.take total) := by
  have within := checkFrame_total_le found
  simp only [checkFrame] at found
  split at found
  · cases found
  next length headerLen read =>
    split at found
    · cases found
    next range =>
      rw [not_not] at range
      split at found
      · cases found
        refine ⟨length, headerLen, readVarInt_local.take read (by omega), range.1, ?_⟩
        rw [List.length_take, Nat.min_eq_left within]
      · cases found

theorem BufferedStream.readFrame_isFrame {s s' : BufferedStream} {maxLen : Int32}
    {arrivals : List Arrival} {f : Bytes}
    (read : s.readFrame maxLen arrivals = (.ready (.ok f), s')) : IsFrame f := by
  fun_induction readFrame s maxLen arrivals with
  | case1 => cases read
  | case2 arrivals s total found =>
    cases read
    exact checkFrame_isFrame found
  | case3 => cases read
  | case4 => cases read
  | case5 => cases read
  | case6 s found a rest n s₁ some filled ih => exact ih read

/-! ### The write side of a socket -/

/-- What became of the bytes handed to `write_all`: the socket took `delivered`, and
`pending` is what it has not taken. -/
structure Writer where
  delivered : Bytes
  pending : Bytes
  /-- A connection that failed a write takes nothing any more. -/
  broken : Bool
  deriving DecidableEq, Repr

/-- How a `write_all` ends on a working socket. -/
inductive Written where
  | all
  | failed (n : Nat)
  deriving DecidableEq, Repr

namespace Writer

def new : Writer := ⟨[], [], false⟩

/-- Everything `write_all` was called with. -/
def handed (w : Writer) : Bytes := w.delivered ++ w.pending

def hand (w : Writer) (bytes : Bytes) : Writer := { w with pending := w.pending ++ bytes }

/-- The socket takes `n` of the bytes it was handed. -/
def push (w : Writer) (n : Nat) : Writer :=
  { w with delivered := w.delivered ++ w.pending.take n, pending := w.pending.drop n }

def fail (w : Writer) : Writer := { w with broken := true }

/-- `write_all`, and whether it succeeded. -/
def writeAll (w : Writer) (bytes : Bytes) (written : Written) : Bool × Writer :=
  let w := w.hand bytes
  -- handed over, but nothing of it reaches the peer
  if w.broken then (false, w)
  else match written with
    | .all => (true, w.push w.pending.length)
    | .failed n => (false, (w.push n).fail)

@[simp] theorem handed_new : new.handed = [] := rfl

@[simp] theorem handed_hand (w : Writer) (bytes : Bytes) :
    (w.hand bytes).handed = w.handed ++ bytes := by
  simp [handed, hand]

@[simp] theorem handed_push (w : Writer) (n : Nat) : (w.push n).handed = w.handed := by
  simp [handed, push]

@[simp] theorem handed_fail (w : Writer) : w.fail.handed = w.handed := rfl

@[simp] theorem handed_writeAll (w : Writer) (bytes : Bytes) (written : Written) :
    (w.writeAll bytes written).2.handed = w.handed ++ bytes := by
  simp only [writeAll]
  split
  · simp
  · cases written <;> simp

/-- On a working socket a `write_all` that is not interrupted succeeds. -/
theorem writeAll_works {w : Writer} (works : w.broken = false) (bytes : Bytes) :
    (w.writeAll bytes .all).1 = true := by
  simp [writeAll, hand, works]

theorem delivered_prefix (w : Writer) : w.delivered <+: w.handed := List.prefix_append _ _

end Writer

/-! ### Both directions -/

structure Splice where
  client : BufferedStream
  backend : BufferedStream
  toClient : Writer
  toBackend : Writer
  deriving DecidableEq, Repr

namespace Splice

/-- Each byte of either stream was handed on once and in order, or can still be read. -/
structure Faithful (clientStream backendStream : Bytes) (s : Splice) : Prop where
  up : s.toBackend.handed ++ s.client.remainder = clientStream
  down : s.toClient.handed ++ s.backend.remainder = backendStream

/-- Bytes only went from each stream to the other side's writer. -/
structure Moves (s s' : Splice) : Prop where
  up : ∃ out, s'.toBackend.handed = s.toBackend.handed ++ out ∧
    out ++ s'.client.remainder = s.client.remainder
  down : ∃ out, s'.toClient.handed = s.toClient.handed ++ out ∧
    out ++ s'.backend.remainder = s.backend.remainder

variable {s s' : Splice}

theorem Moves.faithful (moves : Moves s s') {clientStream backendStream : Bytes}
    (faithful : s.Faithful clientStream backendStream) :
    s'.Faithful clientStream backendStream := by
  obtain ⟨⟨up, handedUp, readUp⟩, ⟨down, handedDown, readDown⟩⟩ := moves
  constructor
  · rw [handedUp, List.append_assoc, readUp, faithful.up]
  · rw [handedDown, List.append_assoc, readDown, faithful.down]

theorem Moves.handed_prefix (moves : Moves s s') : s.toBackend.handed <+: s'.toBackend.handed := by
  obtain ⟨out, handed, -⟩ := moves.up
  rw [handed]
  exact List.prefix_append _ _

/-- A step of the client's side: a read from it, or progress of the backend's writer. -/
theorem moves_up {out : Bytes} {client : BufferedStream} {w : Writer}
    (read : out ++ client.remainder = s.client.remainder)
    (handed : w.handed = s.toBackend.handed ++ out) :
    Moves s { s with client := client, toBackend := w } :=
  ⟨⟨out, handed, read⟩, ⟨[], (List.append_nil _).symm, rfl⟩⟩

theorem moves_down {out : Bytes} {backend : BufferedStream} {w : Writer}
    (read : out ++ backend.remainder = s.backend.remainder)
    (handed : w.handed = s.toClient.handed ++ out) :
    Moves s { s with backend := backend, toClient := w } :=
  ⟨⟨[], (List.append_nil _).symm, rfl⟩, ⟨out, handed, read⟩⟩

theorem moves_refl (s : Splice) : Moves s s :=
  moves_up (List.nil_append _) (List.append_nil _).symm

end Splice

end MCGate
