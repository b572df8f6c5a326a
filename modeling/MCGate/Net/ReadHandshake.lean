import MCGate.Net.BufferedStream

/-!
# `read_handshake` and the way a stream is cut into reads

TCP may deliver a stream in any chunks. The outcome of `read_handshake` should
not depend on them, and it does not as long as the parse of the whole stream is
what every front of it that is parsed tends to (`outcome_of_cut`). Two things
come in between: fields that overrun their frame are read only if the bytes
behind it are there already, and the size cap is applied to what a read brought
before that is parsed.
-/
namespace MCGate.BufferedStream

/-- The stream cut into read chunks of 1 to 4096 bytes. -/
def Cuts (stream : Bytes) (chunks : List Bytes) : Prop :=
  chunks.flatten = stream ∧ ∀ c ∈ chunks, 1 ≤ c.length ∧ c.length ≤ 4096

/-- The chunks arrive one by one, and after them the end of the stream. -/
def deliver (chunks : List Bytes) : List Arrival :=
  chunks.map (fun c => .ready c.length) ++ [.ready 1]

inductive HandshakeErrorKind where
  | io
  | eof
  | malformed
  deriving DecidableEq, Repr

def errorKind : HandshakeError → HandshakeErrorKind
  | .io _ => .io
  | .eof => .eof
  | .malformed _ => .malformed

/-- The handshake or the kind of error, with the part of the stream left unread. -/
structure Outcome where
  result : Poll (Except HandshakeErrorKind Handshake)
  unread : Bytes
  deriving DecidableEq, Repr

def outcome : Poll (Except HandshakeError Handshake) × BufferedStream → Outcome
  | (.pending, s) => ⟨.pending, s.remainder⟩
  | (.ready (.ok h), s) => ⟨.ready (.ok h), s.remainder⟩
  | (.ready (.error e), s) => ⟨.ready (.error (errorKind e)), s.remainder⟩

/-- What `read_handshake` makes of a stream that arrives in these chunks. -/
def handshakeOf (stream : Bytes) (chunks : List Bytes) : Outcome :=
  outcome ((new stream).readHandshake (deliver chunks))

/-- The chunks make no difference, and a stream that starts with a complete handshake
is accepted whatever arrives in the same chunk behind it. -/
def ChunkInvariant (stream : Bytes) : Prop :=
  (∀ c d, Cuts stream c → Cuts stream d → handshakeOf stream c = handshakeOf stream d) ∧
    (StartsWithHandshake stream →
      ∀ c, Cuts stream c → ∃ h, (handshakeOf stream c).result = .ready (.ok h))

/-! ### The loop on a stream that arrives in chunks -/

/-- The outcome that the parse of the whole stream calls for. -/
def expected (stream : Bytes) : Outcome :=
  match tryParse stream with
  | .complete h => ⟨.ready (.ok h), stream.drop h.rawFrame.length⟩
  | .incomplete => ⟨.ready (.error .eof), stream⟩
  | .malformed _ => ⟨.ready (.error .malformed), stream⟩

private theorem outcome_complete {s : BufferedStream} {h : Handshake} (arrivals : List Arrival)
    (parsed : tryParse s.unread = .complete h) :
    outcome (s.readHandshake arrivals) =
      ⟨.ready (.ok h), s.remainder.drop h.rawFrame.length⟩ := by
  have fits := rawFrame_length_le parsed
  have read : s.readHandshake arrivals =
      (.ready (.ok h), s.advance h.rawFrame.length fits) := by
    rw [readHandshake.eq_def]
    split
    next h' found =>
      rw [parsed] at found
      cases found
      rfl
    all_goals simp_all
  rw [read, outcome, remainder, remainder, advance_unread, advance_inner,
    List.drop_append_of_le_length fits]

private theorem outcome_malformed {s : BufferedStream} {reason : String} (arrivals : List Arrival)
    (parsed : tryParse s.unread = .malformed reason) :
    outcome (s.readHandshake arrivals) = ⟨.ready (.error .malformed), s.remainder⟩ := by
  have read : s.readHandshake arrivals = (.ready (.error (.malformed reason)), s) := by
    rw [readHandshake.eq_def]
    split <;> simp_all
  rw [read]
  rfl

/-- Nothing more arrives: the read that finds the end of the stream fails. -/
theorem outcome_eof {s : BufferedStream} (parsed : tryParse s.unread = .incomplete)
    (inner : s.inner = []) :
    outcome (s.readHandshake (deliver [])) = ⟨.ready (.error .eof), s.remainder⟩ := by
  obtain ⟨s', filled⟩ : ∃ s', s.fillMore (.ready 1) = .ok (0, s') := by
    simp [fillMore, receive, inner]
  have read : s.readHandshake (deliver []) = (.ready (.error .eof), s') := by
    rw [readHandshake.eq_def]
    split <;> simp_all [deliver]
  rw [read, ← fillMore_remainder filled]
  rfl

/-- One round that brings a chunk: the size cap is checked before the chunk is parsed. -/
theorem readHandshake_chunk {s : BufferedStream} {chunk rest : Bytes}
    (parsed : tryParse s.unread = .incomplete) (inner : s.inner = chunk ++ rest)
    (size : 1 ≤ chunk.length ∧ chunk.length ≤ 4096) (arrivals : List Arrival) :
    ∃ s', s'.unread = s.unread ++ chunk ∧ s'.inner = rest ∧ s'.remainder = s.remainder ∧
      s.readHandshake (.ready chunk.length :: arrivals) =
        if 1024 < (s.unread ++ chunk).length then
          (.ready (.error (.malformed "handshake exceeded maximum size without completing")), s')
        else s'.readHandshake arrivals := by
  obtain ⟨s', filled, unread, left⟩ := fillMore_chunk inner size.1 size.2
  refine ⟨s', unread, left, fillMore_remainder filled, ?_⟩
  obtain ⟨k, len⟩ : ∃ k, chunk.length = k + 1 := ⟨chunk.length - 1, by omega⟩
  rw [len] at filled ⊢
  rw [readHandshake.eq_def, ← unread, unread_length]
  split <;> simp_all

/-- Every cut of a stream has the outcome that its parse as a whole calls for, unless
the fields overrun the frame or a handshake is followed by more than the cap. -/
theorem outcome_of_cut {s : BufferedStream} {chunks : List Bytes} (inner : s.inner = chunks.flatten)
    (sizes : ∀ c ∈ chunks, 1 ≤ c.length ∧ c.length ≤ 4096)
    (within : ¬ Overruns s.remainder)
    (small : ¬ (StartsWithHandshake s.remainder ∧ 1024 < s.remainder.length)) :
    outcome (s.readHandshake (deliver chunks)) = expected s.remainder := by
  induction chunks generalizing s with
  | nil =>
    -- nothing is left to arrive: the buffer is all there is to parse
    have all : s.remainder = s.unread := by rw [remainder, inner]; simp
    rw [expected, all]
    cases parsed : tryParse s.unread with
    | complete h => rw [outcome_complete _ parsed, all]
    | malformed reason => rw [outcome_malformed _ parsed, all]
    | incomplete => rw [outcome_eof parsed (by simpa using inner), all]
  | cons c chunks ih =>
    cases parsed : tryParse s.unread with
    | complete h =>
      rw [outcome_complete _ parsed, expected, remainder, tryParse_complete_append parsed]
    | malformed reason =>
      rw [outcome_malformed _ parsed, expected]
      -- rejected for good: accepting it with more bytes would be an overrun
      cases whole : tryParse s.remainder with
      | complete h => exact absurd (overruns_of_late_accept parsed whole) within
      | incomplete =>
        have front := tryParse_incomplete_front whole
        rw [parsed] at front
        cases front
      | malformed reason => rfl
    | incomplete =>
      obtain ⟨s', unread, left, same, round⟩ :=
        readHandshake_chunk parsed inner (sizes c (by simp)) (deliver chunks)
      have step : s.readHandshake (deliver (c :: chunks)) = _ := round
      rw [step, ← same]
      split
      next large =>
        -- the cap rejects; the stream is longer still, so its parse is decided as well
        have long : 1024 < s.remainder.length := by
          rw [remainder, inner, List.flatten_cons, ← List.append_assoc, List.length_append]
          omega
        rw [outcome, expected, same]
        cases whole : tryParse s.remainder with
        | complete h =>
          obtain ⟨f, holds, -⟩ := tryParse_complete_iff.mp whole
          by_cases inside : f.bytes.length ≤ f.frameEnd
          · exact absurd ⟨⟨f, holds, inside⟩, long⟩ small
          · exact absurd ⟨f, holds, by omega⟩ within
        | incomplete =>
          have := tryParse_incomplete_length whole
          omega
        | malformed reason => rfl
      next =>
        -- below the cap the loop goes on with the chunk in its buffer
        rw [← same] at within small
        exact ih left (fun d mem => sizes d (by simp [mem])) within small

/-! ### Cuts that tell two outcomes apart -/

/-- The first `n` bytes in one read, the rest byte by byte. -/
def frontCut (stream : Bytes) (n : Nat) : List Bytes :=
  stream.take n :: (stream.drop n).map fun b => [b]

private theorem frontCut_cuts {stream : Bytes} {n : Nat} (size : 1 ≤ n ∧ n ≤ 4096)
    (within : n ≤ stream.length) : Cuts stream (frontCut stream n) := by
  constructor
  · have singles : ∀ b : Bytes, (b.map fun x => [x]).flatten = b := by
      intro b
      induction b with
      | nil => rfl
      | cons x b ih => simp [ih]
    rw [frontCut, List.flatten_cons, singles, List.take_append_drop]
  · intro c mem
    rcases List.mem_cons.mp mem with rfl | single
    · rw [List.length_take]
      omega
    · obtain ⟨b, -, rfl⟩ := List.mem_map.mp single
      simp

private theorem handshakeOf_frontCut {stream : Bytes} {n : Nat} (size : 1 ≤ n ∧ n ≤ 4096)
    (within : n ≤ stream.length) :
    ∃ s' : BufferedStream, s'.unread = stream.take n ∧ handshakeOf stream (frontCut stream n) =
      if 1024 < n then ⟨.ready (.error .malformed), s'.remainder⟩
      else outcome (s'.readHandshake (deliver (frontCut stream n).tail)) := by
  have len : (stream.take n).length = n := by
    rw [List.length_take]
    omega
  obtain ⟨s', unread, left, same, round⟩ := @readHandshake_chunk (new stream) (stream.take n)
    (stream.drop n) rfl (List.take_append_drop n stream).symm (by omega)
    (deliver (frontCut stream n).tail)
  refine ⟨s', unread, ?_⟩
  rw [new_unread, List.nil_append, len] at round
  have step : (new stream).readHandshake (deliver (frontCut stream n)) =
      (new stream).readHandshake (.ready n :: deliver (frontCut stream n).tail) := by
    simp [frontCut, deliver, len]
  rw [handshakeOf, step, round]
  split <;> rfl

private theorem frontCut_accepted {stream : Bytes} {n : Nat} {h : Handshake}
    (size : 1 ≤ n ∧ n ≤ 1024) (within : n ≤ stream.length)
    (parsed : tryParse (stream.take n) = .complete h) :
    (handshakeOf stream (frontCut stream n)).result = .ready (.ok h) := by
  obtain ⟨s', unread, read⟩ := handshakeOf_frontCut (by omega) within
  rw [← unread] at parsed
  rw [read, if_neg (by omega), outcome_complete _ parsed]

private theorem frontCut_rejected {stream : Bytes} {n : Nat} (size : 1 ≤ n ∧ n ≤ 4096)
    (within : n ≤ stream.length)
    (rejects : 1024 < n ∨ ∃ reason, tryParse (stream.take n) = .malformed reason) :
    (handshakeOf stream (frontCut stream n)).result = .ready (.error .malformed) := by
  obtain ⟨s', unread, read⟩ := handshakeOf_frontCut size within
  rw [read]
  split
  · rfl
  next small =>
    rcases rejects with large | ⟨reason, parsed⟩
    · exact absurd large small
    · rw [← unread] at parsed
      rw [outcome_malformed _ parsed]

/-- An accepting and a rejecting cut of the same stream. -/
private theorem not_invariant {stream : Bytes} {m n : Nat}
    (invariant : ChunkInvariant stream)
    (sizeM : 1 ≤ m ∧ m ≤ 1024) (withinM : m ≤ stream.length)
    (accepts : ∃ h, tryParse (stream.take m) = .complete h)
    (sizeN : 1 ≤ n ∧ n ≤ 4096) (withinN : n ≤ stream.length)
    (rejects : 1024 < n ∨ ∃ reason, tryParse (stream.take n) = .malformed reason) : False := by
  obtain ⟨h, accepts⟩ := accepts
  have same := invariant.1 _ _ (frontCut_cuts ⟨sizeM.1, by omega⟩ withinM)
    (frontCut_cuts sizeN withinN)
  have results := congrArg Outcome.result same
  rw [frontCut_accepted sizeM withinM accepts, frontCut_rejected sizeN withinN rejects] at results
  cases results

/-- The chunks make no difference exactly when the fields stay inside the frame and a
stream that starts with a handshake is no longer than the size cap. -/
theorem chunkInvariant_iff (stream : Bytes) :
    ChunkInvariant stream ↔
      ¬ Overruns stream ∧ ¬ (StartsWithHandshake stream ∧ 1024 < stream.length) := by
  constructor
  · intro invariant
    constructor
    · rintro ⟨f, holds, past⟩
      have ends := f.frameEnd_bounds
      have most := f.bytes_length_le
      have within := holds.fields.length_le
      -- accepted when the fields arrive together, rejected when the frame arrives alone
      have accepts : ∃ h, tryParse (stream.take f.bytes.length) = .complete h := by
        refine ⟨_, tryParse_complete_iff.mpr ⟨f, ⟨?_, ?_⟩, rfl⟩⟩
        · exact List.prefix_of_prefix_length_le holds.fields (List.take_prefix _ _)
            (by rw [List.length_take]; omega)
        · rw [List.length_take]
          omega
      have rejects : ∃ reason, tryParse (stream.take f.frameEnd) = .malformed reason := by
        cases parsed : tryParse (stream.take f.frameEnd) with
        | complete h => exact absurd parsed (holds.cut past h)
        | incomplete => exact absurd parsed (holds.decided (Nat.le_refl _))
        | malformed reason => exact ⟨reason, rfl⟩
      exact not_invariant invariant ⟨by omega, by omega⟩ within accepts
        ⟨ends.1, by omega⟩ holds.frame (Or.inr rejects)
    · rintro ⟨⟨f, holds, inside⟩, long⟩
      have ends := f.frameEnd_bounds
      have accepts : ∃ h, tryParse (stream.take f.frameEnd) = .complete h := by
        have alone := holds.frame_alone inside []
        rw [List.append_nil] at alone
        exact ⟨_, tryParse_complete_iff.mpr ⟨f, alone, rfl⟩⟩
      exact not_invariant invariant ⟨ends.1, by omega⟩ holds.frame accepts
        (by omega : 1 ≤ 1025 ∧ 1025 ≤ 4096) (by omega) (Or.inl (by omega))
  · rintro ⟨within, small⟩
    have all : ∀ c, Cuts stream c → handshakeOf stream c = expected stream := fun c cuts =>
      @outcome_of_cut (new stream) c cuts.1.symm cuts.2 within small
    refine ⟨fun c d cutsC cutsD => by rw [all c cutsC, all d cutsD], ?_⟩
    rintro ⟨f, holds, -⟩ c cuts
    rw [all c cuts, expected, tryParse_complete_iff.mpr ⟨f, holds, rfl⟩]
    exact ⟨_, rfl⟩

/-- A complete handshake (host empty, port 25565, login) with 1100 pipelined bytes. -/
def pipelined : Bytes := [0x06, 0x00, 0x00, 0x00, 0x63, 0xDD, 0x02] ++ List.replicate 1100 0

/-- Accepted when its frame arrives first, rejected when everything arrives in one read. -/
theorem pipelined_not_chunkInvariant :
    (∃ h, (handshakeOf pipelined (frontCut pipelined 7)).result = .ready (.ok h)) ∧
      (handshakeOf pipelined [pipelined]).result = .ready (.error .malformed) ∧
      ¬ ChunkInvariant pipelined := by
  have len : pipelined.length = 1107 := by
    rw [pipelined, List.length_append, List.length_replicate]
    rfl
  have frame : pipelined.take 7 = [0x06, 0x00, 0x00, 0x00, 0x63, 0xDD, 0x02] := rfl
  have accepts : ∃ h, tryParse (pipelined.take 7) = .complete h := by
    rw [frame]
    exact ⟨⟨0, [], 25565, 2, [0x06, 0x00, 0x00, 0x00, 0x63, 0xDD, 0x02]⟩, by decide⟩
  have whole : frontCut pipelined 1107 = [pipelined] := by
    rw [frontCut, List.take_of_length_le (by omega), List.drop_eq_nil_of_le (by omega)]
    rfl
  refine ⟨?_, ?_, fun invariant => ?_⟩
  · obtain ⟨h, parsed⟩ := accepts
    exact ⟨h, frontCut_accepted (by omega) (by omega) parsed⟩
  · rw [← whole]
    exact frontCut_rejected (by omega) (by omega) (Or.inl (by omega))
  · exact not_invariant invariant (m := 7) (n := 1107) (by omega) (by omega) accepts (by omega)
      (by omega) (Or.inl (by omega))

end MCGate.BufferedStream
