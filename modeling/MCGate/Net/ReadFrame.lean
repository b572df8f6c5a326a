import Mathlib.Data.List.Infix
import MCGate.Net.BufferedStream

/-!
# How much `read_frame` buffers while it waits

The loop treats every failed length VarInt as one that needs more bytes. So it
waits with a bounded buffer that can still become a frame, unless the stream
starts with a run of continuing bytes that no byte can turn into a length within
`max_len`: then it buffers on.
-/
namespace MCGate.BufferedStream

open Reader

/-- While `read_frame` waits for more data, its buffer stays within `5 + max_len + 4096`
bytes and can still become a frame within `max_len`. -/
def WaitsWithinBound (s : BufferedStream) (maxLen : Int32) : Prop :=
  ∀ arrivals s', s.readFrame maxLen arrivals = (.pending, s') →
    s'.unread.length ≤ 5 + maxLen.toNatClampNeg + 4096 ∧
      ∃ more total, checkFrame (s'.unread ++ more) maxLen = .frame total

/-- The bytes are a run with the continuation bit set that is five long, or whose value
bits already exceed `max_len`. -/
def Hopeless (maxLen : Int32) (p : Bytes) : Prop :=
  (5 ≤ p.length ∧ ∀ b ∈ p.take 5, Continues b) ∨
    ((∀ b ∈ p, Continues b) ∧ maxLen.toNatClampNeg < (accumulate 0 0 p).toNat)

instance (maxLen : Int32) (p : Bytes) : Decidable (Hopeless maxLen p) :=
  inferInstanceAs (Decidable (_ ∨ _))

/-! ### A waiting buffer -/

theorem checkFrame_needMore_of_error {unread : Bytes} {maxLen : Int32} {e : VarIntError}
    (failed : readVarInt unread = .error e) : checkFrame unread maxLen = .needMore := by
  rw [checkFrame, failed]

private theorem checkFrame_of_ok {unread : Bytes} {maxLen length : Int32} {n : Nat}
    (read : readVarInt unread = .ok (length, n)) (range : 0 ≤ length ∧ length ≤ maxLen)
    (whole : n + length.toNatClampNeg ≤ unread.length) :
    checkFrame unread maxLen = .frame (n + length.toNatClampNeg) := by
  simp [checkFrame, read, range, whole]

/-- `read_frame` waits only in front of a check that needs more bytes, and hands out
nothing on the way there. -/
theorem readFrame_pending {s s' : BufferedStream} {maxLen : Int32} {arrivals : List Arrival}
    (waiting : s.readFrame maxLen arrivals = (.pending, s')) :
    checkFrame s'.unread maxLen = .needMore ∧ s.unread <+: s'.unread ∧
      s'.remainder = s.remainder := by
  fun_induction readFrame s maxLen arrivals with
  | case1 => cases waiting
  | case2 => cases waiting
  | case3 s found =>
    cases waiting
    exact ⟨found, List.prefix_refl _, rfl⟩
  | case4 => cases waiting
  | case5 => cases waiting
  | case6 s found a rest n s₁ some filled ih =>
    obtain ⟨check, front, same⟩ := ih waiting
    obtain ⟨chunk, -, -, unread, -⟩ := fillMore_ok filled
    rw [unread] at front
    exact ⟨check, (List.prefix_append _ _).trans front, by rw [same, fillMore_remainder filled]⟩

/-- A run of fewer than five continuing bytes is closed by a zero byte, with the bits
read so far as its value. -/
theorem readVarInt_close {p : Bytes} (run : ∀ b ∈ p, Continues b) (short : p.length < 5)
    (r : Bytes) :
    readVarInt (p ++ 0 :: r) = .ok ((accumulate 0 0 p).toInt32, p.length + 1) := by
  rw [readVarInt, readVarIntLoop_continues run (by omega)]
  simp [readVarIntLoop]

private theorem accumulate_toInt {p : Bytes} (short : p.length < 5) :
    (accumulate 0 0 p).toInt32.toInt = (accumulate 0 0 p).toNat := by
  have bound : (accumulate 0 0 p).toNat < 2 ^ (0 + 7 * p.length) :=
    accumulate_lt (by decide) (by omega)
  have small : 2 ^ (0 + 7 * p.length) ≤ 2 ^ 28 := Nat.pow_le_pow_right (by omega) (by omega)
  rw [toInt_toInt32, if_pos (by omega)]

/-- A buffer that needs more bytes and is not hopeless is short, and some bytes make it
a frame. -/
theorem bounded_of_needMore {p : Bytes} {maxLen : Int32} (nonneg : 0 ≤ maxLen)
    (check : checkFrame p maxLen = .needMore) (hope : ¬ Hopeless maxLen p) :
    p.length ≤ 5 + maxLen.toNatClampNeg ∧
      ∃ more total, checkFrame (p ++ more) maxLen = .frame total := by
  cases read : readVarInt p with
  | error e =>
    cases e with
    | tooBig => exact absurd (Or.inl (readVarInt_tooBig_iff.mp read)) hope
    | incomplete =>
      obtain ⟨run, short⟩ := readVarInt_incomplete_iff.mp read
      have value := accumulate_toInt short
      -- the bits read so far are a length in range, so a zero byte and as much payload complete it
      have small : (accumulate 0 0 p).toNat ≤ maxLen.toNatClampNeg := by
        by_contra large
        exact hope (Or.inr ⟨run, by omega⟩)
      rw [Int32.le_iff_toInt_le] at nonneg
      have range : 0 ≤ (accumulate 0 0 p).toInt32 ∧ (accumulate 0 0 p).toInt32 ≤ maxLen := by
        rw [Int32.le_iff_toInt_le, Int32.le_iff_toInt_le, value]
        simp only [Int32.toNatClampNeg, Int32.toInt_zero] at small nonneg ⊢
        omega
      refine ⟨by omega, 0 :: List.replicate (accumulate 0 0 p).toInt32.toNatClampNeg 0, _,
        checkFrame_of_ok (readVarInt_close run short _) range ?_⟩
      simp only [List.length_append, List.length_cons, List.length_replicate]
      omega
  | ok x =>
    obtain ⟨length, n⟩ := x
    have size := readVarInt_size read
    simp only [checkFrame, read] at check
    split at check
    · cases check
    next range =>
      split at check
      · cases check
      next partly =>
        -- the length is there and in range; only payload is missing
        have range := Classical.not_not.mp range
        have most : length.toNatClampNeg ≤ maxLen.toNatClampNeg := by
          have := Int32.le_iff_toInt_le.mp range.2
          simp only [Int32.toNatClampNeg]
          omega
        have again : readVarInt (p ++ List.replicate (n + length.toNatClampNeg) 0) =
            .ok (length, n) := by
          rw [readVarInt_append (by rw [read]; simp), read]
        refine ⟨by omega, List.replicate (n + length.toNatClampNeg) 0, _,
          checkFrame_of_ok again range ?_⟩
        simp only [List.length_append, List.length_replicate]
        omega

/-! ### A hopeless buffer -/

/-- Nothing that follows a hopeless run makes a frame of it. -/
theorem Hopeless.no_frame {p : Bytes} {maxLen : Int32} (hopeless : Hopeless maxLen p)
    (more : Bytes) (total : Nat) : checkFrame (p ++ more) maxLen ≠ .frame total := by
  intro found
  simp only [checkFrame] at found
  split at found
  · cases found
  next length n read =>
    split at found
    · cases found
    next range =>
      rcases hopeless with big | ⟨run, large⟩
      · have failed := readVarInt_tooBig_iff.mpr big
        rw [readVarInt_append (by rw [failed]; simp), failed] at read
        cases read
      · by_cases short : p.length < 5
        · rw [readVarInt, readVarIntLoop_continues run (by omega)] at read
          -- whatever length is read keeps the bits of the run, so it is too large or negative
          obtain ⟨w, rfl, ge⟩ := readVarIntLoop_ge read
          obtain ⟨nonneg, most⟩ := Classical.not_not.mp range
          rw [Int32.le_iff_toInt_le, toInt_toInt32] at nonneg most
          simp only [Int32.toNatClampNeg, Int32.toInt_zero] at large nonneg
          by_cases half : w.toNat < 2 ^ 31
          · rw [if_pos half] at most
            omega
          · rw [if_neg half] at nonneg
            have := w.toNat_lt
            omega
        -- five bytes or more: the length has already failed for good
        · have failed : readVarInt p = .error .tooBig :=
            readVarInt_tooBig_iff.mpr ⟨by omega, fun b h => run b (List.mem_of_mem_take h)⟩
          rw [readVarInt_append (by rw [failed]; simp), failed] at read
          cases read

/-- On every front of a hopeless run the loop finds no length. -/
theorem Hopeless.front_needMore {p q : Bytes} {maxLen : Int32} (hopeless : Hopeless maxLen p)
    (front : q <+: p) : checkFrame q maxLen = .needMore := by
  have run : ∀ b ∈ q.take 5, Continues b := by
    intro b mem
    rcases hopeless with ⟨-, run⟩ | ⟨run, -⟩
    · exact run b (front.take 5 |>.subset mem)
    · exact run b (front.subset (List.mem_of_mem_take mem))
  by_cases long : 5 ≤ q.length
  · exact checkFrame_needMore_of_error (readVarInt_tooBig_iff.mpr ⟨long, run⟩)
  · rw [List.take_of_length_le (by omega)] at run
    exact checkFrame_needMore_of_error (readVarInt_incomplete_iff.mpr ⟨run, by omega⟩)

/-- Delivered byte by byte, a run on which the loop never finds a length ends up in the
buffer as a whole. -/
theorem readFrame_buffers {s : BufferedStream} {maxLen : Int32} {q r : Bytes}
    (inner : s.inner = q ++ r)
    (blind : ∀ u, s.unread <+: u → u <+: s.unread ++ q → checkFrame u maxLen = .needMore) :
    ∃ arrivals s', s.readFrame maxLen arrivals = (.pending, s') ∧ s'.unread = s.unread ++ q := by
  induction q generalizing s with
  | nil =>
    refine ⟨[], s, ?_, by simp⟩
    have here := blind s.unread (List.prefix_refl _) (by simp)
    unfold readFrame
    split <;> simp_all
  | cons b q ih =>
    have here := blind s.unread (List.prefix_refl _) (List.prefix_append _ _)
    -- one more byte arrives, and the loop is as blind as before
    obtain ⟨s₁, filled, unread, rest⟩ := @fillMore_chunk s [b] _ inner (by simp) (by simp)
    obtain ⟨arrivals, s', waiting, whole⟩ := ih rest fun u from₁ to₁ => by
      rw [unread] at from₁ to₁
      exact blind u ((List.prefix_append _ _).trans from₁) (by simpa using to₁)
    refine ⟨.ready 1 :: arrivals, s', ?_, by rw [whole, unread]; simp⟩
    rw [← waiting]
    exact readFrame_fill here filled (by simp) arrivals

/-- `read_frame` stays within its bound exactly on the streams of which it never holds
a hopeless front. -/
theorem waitsWithinBound_iff (s : BufferedStream) (maxLen : Int32) (nonneg : 0 ≤ maxLen) :
    WaitsWithinBound s maxLen ↔
      ∀ p, s.unread <+: p → p <+: s.remainder → ¬ Hopeless maxLen p := by
  constructor
  · intro waits p front within hopeless
    obtain ⟨q, rfl⟩ := front
    obtain ⟨r, whole⟩ := within
    rw [remainder, List.append_assoc, List.append_cancel_left_eq] at whole
    -- the loop waits with the hopeless front in its buffer, which nothing makes a frame
    obtain ⟨arrivals, s', waiting, unread⟩ := readFrame_buffers whole.symm
      fun u _ upto => hopeless.front_needMore upto
    obtain ⟨-, more, total, found⟩ := waits arrivals s' waiting
    rw [unread] at found
    exact hopeless.no_frame more total found
  · intro hope arrivals s' waiting
    obtain ⟨check, front, same⟩ := readFrame_pending waiting
    have within : s'.unread <+: s.remainder := by
      rw [← same]
      exact List.prefix_append _ _
    obtain ⟨short, frame⟩ := bounded_of_needMore nonneg check (hope _ front within)
    exact ⟨by omega, frame⟩

/-- A ping frame read within 64 bytes: none of the fronts of its stream is hopeless. -/
theorem waitsWithinBound_ping :
    WaitsWithinBound (new [0x09, 0x01, 0, 0, 0, 0, 0, 0, 0, 1]) 64 := by
  refine (waitsWithinBound_iff _ 64 (by decide)).mpr fun p _ within => ?_
  have all : ∀ p ∈ (new [0x09, 0x01, 0, 0, 0, 0, 0, 0, 0, 1]).remainder.inits,
      ¬ Hopeless 64 p := by decide +kernel
  exact all p (List.mem_inits p _ |>.mpr within)

/-- Five thousand bytes that all continue are buffered to the last one, past the
`5 + 64 + 4096` bytes that a read within 64 bytes should ever hold. -/
theorem continuing_bytes_not_waitsWithinBound :
    (∃ arrivals s', (new (List.replicate 5000 0x80)).readFrame 64 arrivals = (.pending, s') ∧
      s'.unread.length = 5000) ∧ ¬ WaitsWithinBound (new (List.replicate 5000 0x80)) 64 := by
  have hopeless : Hopeless 64 (List.replicate 5000 0x80) := by
    refine Or.inl ⟨by rw [List.length_replicate]; decide, fun b mem => ?_⟩
    rw [List.eq_of_mem_replicate (List.mem_of_mem_take mem)]
    decide
  have buffered : ∃ arrivals s', (new (List.replicate 5000 0x80)).readFrame 64 arrivals =
      (.pending, s') ∧ s'.unread.length = 5000 := by
    obtain ⟨arrivals, s', waiting, whole⟩ :=
      @readFrame_buffers (new (List.replicate 5000 0x80)) 64 (List.replicate 5000 0x80) []
        (by rw [List.append_nil]; rfl) fun u _ upto => hopeless.front_needMore upto
    exact ⟨arrivals, s', waiting, by rw [whole, new_unread, List.nil_append, List.length_replicate]⟩
  refine ⟨buffered, fun waits => ?_⟩
  obtain ⟨arrivals, s', waiting, length⟩ := buffered
  have bound := (waits arrivals s' waiting).1
  rw [length] at bound
  exact absurd bound (by decide)

end MCGate.BufferedStream
