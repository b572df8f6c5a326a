import Mathlib.Algebra.Group.Int.Defs
import Mathlib.Algebra.Group.Nat.Defs
import MCGate.Lib.Reader
import MCGate.Std.Text

/-!
# VarInts, frame lengths and strings

The primitives every packet is built from. Reading is a pure function of the
buffer that returns the value with the number of bytes consumed; a writer is
given by the bytes it appends. The main fact
is `readVarInt_local`: an accepted VarInt is decided by its own bytes, so the
theory of local readers applies to every field that starts with one.
-/
namespace MCGate

open Reader

def MAX_PACKET_BYTES : Int32 := 2097151

inductive VarIntError where
  | incomplete
  | tooBig
  deriving DecidableEq, Repr

/-- The loop of `read_var_int`: `result` holds the bits read so far, `i` counts bytes. -/
def readVarIntLoop (result : UInt32) (shift i : Nat) : Bytes → Except VarIntError (Int32 × Nat)
  | [] => .error .incomplete
  | b :: rest =>
    let result := result ||| ((b &&& 0x7F).toUInt32 <<< UInt32.ofNat shift)
    -- no continuation bit: this was the last byte
    if b &&& 0x80 = 0 then .ok (result.toInt32, i + 1)
    -- `shift >= 35` after the increment, so the sixth byte is never looked at
    else if 35 ≤ shift + 7 then .error .tooBig
    else readVarIntLoop result (shift + 7) (i + 1) rest

def readVarInt (buf : Bytes) : Except VarIntError (Int32 × Nat) := readVarIntLoop 0 0 0 buf

/-- The loop of `write_var_int`. Five rounds suffice for 32 bits, so the source's
`loop` always leaves through its `return`. -/
def writeVarIntLoop : Nat → UInt32 → Bytes
  | 0, _ => []
  | n + 1, v =>
    if v &&& ~~~(0x7F : UInt32) = 0 then [v.toUInt8]
    else ((v &&& 0x7F) ||| 0x80).toUInt8 :: writeVarIntLoop n (v >>> 7)

def writeVarInt (value : Int32) : Bytes := writeVarIntLoop 5 value.toUInt32

structure StringTooLong where
  length : Int32
  deriving DecidableEq, Repr

/-- `saturating_mul(4)` on `i32` -/
def saturatingMul4 (n : Int32) : Int :=
  max (-2147483648) (min 2147483647 (n.toInt * 4))

def readString (buf : Bytes) (maxLength : Int32) : Except StringTooLong (Text × Nat) :=
  match readVarInt buf with
  | .error _ => .error ⟨-1⟩
  | .ok (length, consumed) =>
    if length < 0 ∨ length.toInt > saturatingMul4 maxLength then .error ⟨length⟩
    else
      let len := length.toNatClampNeg
      -- `buf.get(consumed..consumed + len)`
      if consumed + len ≤ buf.length then
        .ok (fromUtf8Lossy ((buf.drop consumed).take len), consumed + len)
      else .error ⟨length⟩

def writeString (value : Text) : Bytes :=
  writeVarInt (Int32.ofNat (asBytes value).length) ++ asBytes value

def lengthPrefix (payload : Bytes) : Bytes :=
  writeVarInt (Int32.ofNat payload.length) ++ payload

/-! ### What an accepted VarInt depends on -/

private theorem readVarIntLoop_bounds {result : UInt32} {shift i : Nat} {buf : Bytes} {v : Int32}
    {n : Nat} (read : readVarIntLoop result shift i buf = .ok (v, n)) :
    i < n ∧ n ≤ i + buf.length ∧ (shift < 35 → shift + 7 * (n - i) ≤ 41) := by
  induction buf generalizing result shift i with
  | nil => simp [readVarIntLoop] at read
  | cons b rest ih =>
    simp only [readVarIntLoop] at read
    split at read
    · simp only [Except.ok.injEq, Prod.mk.injEq] at read
      obtain ⟨-, rfl⟩ := read
      simp only [List.length_cons]
      omega
    · split at read
      · cases read
      · next room =>
        obtain ⟨more, within, rounds⟩ := ih read
        simp only [List.length_cons]
        refine ⟨by omega, by omega, fun _ => ?_⟩
        have := rounds (by omega)
        omega

private theorem readVarIntLoop_stable {result : UInt32} {shift i : Nat} {buf : Bytes} {v : Int32}
    {n : Nat} (read : readVarIntLoop result shift i buf = .ok (v, n)) (r : Bytes) :
    readVarIntLoop result shift i (buf.take (n - i) ++ r) = .ok (v, n) := by
  induction buf generalizing result shift i with
  | nil => simp [readVarIntLoop] at read
  | cons b rest ih =>
    have bounds := readVarIntLoop_bounds read
    -- at least the first byte is consumed, so it survives the cut
    obtain ⟨k, count⟩ : ∃ k, n - i = k + 1 := ⟨n - i - 1, by omega⟩
    rw [count, List.take_succ_cons, List.cons_append]
    simp only [readVarIntLoop] at read ⊢
    split at read
    next last => simpa only [if_pos last] using read
    next more =>
      rw [if_neg more]
      split at read
      next full => cases read
      next room =>
        rw [if_neg room]
        have same : k = n - (i + 1) := by omega
        rw [same]
        exact ih read

/-- An accepted VarInt is decided by its own bytes. -/
theorem readVarInt_local : Local readVarInt where
  within read := by
    have := readVarIntLoop_bounds read
    omega
  stable read r := by simpa [readVarInt] using readVarIntLoop_stable read r

/-- A VarInt takes one to five bytes. -/
theorem readVarInt_size {buf : Bytes} {v : Int32} {n : Nat} (read : readVarInt buf = .ok (v, n)) :
    1 ≤ n ∧ n ≤ 5 := by
  have := readVarIntLoop_bounds read
  omega

/-! ### How a VarInt fails

A failed read is a run of bytes with the continuation bit set: fewer than five
and the buffer ended, or five of them. -/

/-- The byte announces another one. -/
def Continues (b : UInt8) : Prop := b &&& 0x80 ≠ 0

instance : DecidablePred Continues := fun b => inferInstanceAs (Decidable (b &&& 0x80 ≠ 0))

/-- The bits that a run of continuing bytes has put into `result`. -/
def accumulate : UInt32 → Nat → Bytes → UInt32
  | result, _, [] => result
  | result, shift, b :: rest =>
    accumulate (result ||| ((b &&& 0x7F).toUInt32 <<< UInt32.ofNat shift)) (shift + 7) rest

/-- A run of continuing bytes leaves the loop waiting for the byte after it. -/
theorem readVarIntLoop_continues {p : Bytes} (run : ∀ b ∈ p, Continues b) {result : UInt32}
    {shift i : Nat} (room : shift + 7 * p.length < 35) (r : Bytes) :
    readVarIntLoop result shift i (p ++ r) =
      readVarIntLoop (accumulate result shift p) (shift + 7 * p.length) (i + p.length) r := by
  induction p generalizing result shift i with
  | nil => rfl
  | cons b p ih =>
    have more : ¬ b &&& 0x80 = 0 := run b (by simp)
    simp only [List.length_cons] at room ⊢
    rw [List.cons_append, readVarIntLoop, if_neg more, if_neg (by omega),
      ih (fun x h => run x (by simp [h])) (by omega), accumulate]
    congr 1 <;> omega

private theorem readVarIntLoop_incomplete {result : UInt32} {shift i : Nat} {buf : Bytes}
    (failed : readVarIntLoop result shift i buf = .error .incomplete) :
    (∀ b ∈ buf, Continues b) ∧ (shift < 35 → shift + 7 * buf.length < 35) := by
  induction buf generalizing result shift i with
  | nil => simp
  | cons b rest ih =>
    simp only [readVarIntLoop] at failed
    split at failed
    · cases failed
    · split at failed
      · cases failed
      · next more room =>
        obtain ⟨run, short⟩ := ih failed
        simp only [List.mem_cons, forall_eq_or_imp, List.length_cons]
        refine ⟨⟨more, run⟩, fun _ => ?_⟩
        have := short (by omega)
        omega

private theorem readVarIntLoop_tooBig {result : UInt32} {shift i : Nat} {buf : Bytes}
    (failed : readVarIntLoop result shift i buf = .error .tooBig) (start : shift < 35) :
    ∃ p r, buf = p ++ r ∧ (∀ b ∈ p, Continues b) ∧
      35 ≤ shift + 7 * p.length ∧ shift + 7 * p.length < 42 := by
  induction buf generalizing result shift i with
  | nil => simp [readVarIntLoop] at failed
  | cons b rest ih =>
    simp only [readVarIntLoop] at failed
    split at failed
    · cases failed
    · next more =>
      split at failed
      · refine ⟨[b], rest, rfl, by simpa [Continues] using more, ?_, ?_⟩ <;> simp <;> omega
      · obtain ⟨p, r, rfl, run, enough, few⟩ := ih failed (by omega)
        refine ⟨b :: p, r, rfl, ?_, ?_, ?_⟩
        · simp only [List.mem_cons, forall_eq_or_imp]
          exact ⟨more, run⟩
        · simp only [List.length_cons]; omega
        · simp only [List.length_cons]; omega

/-- The buffer ends inside a VarInt exactly when it is fewer than five continuing bytes. -/
theorem readVarInt_incomplete_iff {buf : Bytes} :
    readVarInt buf = .error .incomplete ↔ (∀ b ∈ buf, Continues b) ∧ buf.length < 5 := by
  constructor
  · intro failed
    obtain ⟨run, short⟩ := readVarIntLoop_incomplete failed
    exact ⟨run, by have := short (by omega); omega⟩
  · rintro ⟨run, short⟩
    -- the loop runs over the whole buffer and finds nothing behind it
    have waiting : readVarIntLoop 0 0 0 (buf ++ []) = _ := readVarIntLoop_continues run (by omega) []
    rw [List.append_nil] at waiting
    rw [readVarInt, waiting]
    rfl

/-- A VarInt is too big exactly when its first five bytes all continue. -/
theorem readVarInt_tooBig_iff {buf : Bytes} :
    readVarInt buf = .error .tooBig ↔ 5 ≤ buf.length ∧ ∀ b ∈ buf.take 5, Continues b := by
  constructor
  · intro failed
    obtain ⟨p, r, rfl, run, enough, few⟩ := readVarIntLoop_tooBig failed (by omega)
    have five : p.length = 5 := by omega
    rw [← five, List.take_append_length, List.length_append]
    exact ⟨Nat.le_add_right _ _, run⟩
  · rintro ⟨enough, run⟩
    -- four bytes bring the loop to its last round, the fifth one ends it
    obtain ⟨q, b, five⟩ : ∃ q b, buf.take 5 = q ++ [b] := by
      rcases List.eq_nil_or_concat (buf.take 5) with none | ⟨q, b, five⟩
      · simp [List.take_eq_nil_iff] at none
        simp [none] at enough
      · exact ⟨q, b, by rw [five, List.concat_eq_append]⟩
    have len : q.length = 4 := by
      have := congrArg List.length five
      simp only [List.length_take, List.length_append, List.length_singleton] at this
      omega
    simp only [five, List.mem_append, List.mem_singleton] at run
    have last : ¬ b &&& 0x80 = 0 := run b (Or.inr rfl)
    rw [readVarInt, ← List.take_append_drop 5 buf, five, List.append_assoc,
      readVarIntLoop_continues (fun x h => run x (Or.inl h)) (by omega),
      List.singleton_append, readVarIntLoop, if_neg last, if_pos (by omega)]

/-- A VarInt that failed for good, or was read, is not changed by further bytes. -/
theorem readVarInt_append {buf : Bytes} (decided : readVarInt buf ≠ .error .incomplete)
    (r : Bytes) : readVarInt (buf ++ r) = readVarInt buf := by
  cases read : readVarInt buf with
  | ok x =>
    obtain ⟨v, n⟩ := x
    obtain ⟨enc, rest, rfl, len, reads⟩ := readVarInt_local.split read
    rw [List.append_assoc, reads.append readVarInt_local, len]
  | error e =>
    cases e with
    | incomplete => exact absurd read decided
    | tooBig =>
      obtain ⟨enough, run⟩ := readVarInt_tooBig_iff.mp read
      refine readVarInt_tooBig_iff.mpr ⟨?_, ?_⟩
      · rw [List.length_append]
        omega
      · rwa [List.take_append_of_le_length enough]

/-! ### Frames -/

/-- A length prefix and exactly as many bytes as it says. -/
def IsFrame (f : Bytes) : Prop :=
  ∃ length headerLen, readVarInt f = .ok (length, headerLen) ∧ 0 ≤ length ∧
    f.length = headerLen + length.toNatClampNeg

theorem IsFrame.nonempty {f : Bytes} (isFrame : IsFrame f) : f ≠ [] := by
  obtain ⟨length, headerLen, read, -, size⟩ := isFrame
  have := readVarInt_size read
  intro empty
  rw [empty, List.length_nil] at size
  omega

theorem prefixFree_isFrame : PrefixFree IsFrame := by
  rintro c d r s ⟨length, headerLen, read, -, size⟩ ⟨length', headerLen', read', -, size'⟩ same
  -- the length prefix is read off either frame alone, so both frames are equally long
  have decided : readVarInt c ≠ .error .incomplete := by simp [read]
  have decided' : readVarInt d ≠ .error .incomplete := by simp [read']
  have whole := readVarInt_append decided r
  rw [same, readVarInt_append decided' s, read, read'] at whole
  simp only [Except.ok.injEq, Prod.mk.injEq] at whole
  obtain ⟨rfl, rfl⟩ := whole
  exact (List.append_inj same (by rw [size, size'])).1

/-! ### The value a VarInt is going to have

Reading on only sets further bits, so the bits read so far bound the value from
below, and closing the run with a zero byte gives exactly them. -/

theorem toInt_toInt32 (w : UInt32) :
    w.toInt32.toInt = if w.toNat < 2 ^ 31 then (w.toNat : Int) else w.toNat - 2 ^ 32 := by
  have cond := BitVec.toInt_eq_toNat_cond w.toBitVec
  change w.toInt32.toInt = _ at cond
  rw [cond, UInt32.toNat_toBitVec]
  split <;> split <;> first | rfl | omega

theorem readVarIntLoop_ge {result : UInt32} {shift i : Nat} {buf : Bytes} {v : Int32} {n : Nat}
    (read : readVarIntLoop result shift i buf = .ok (v, n)) :
    ∃ w : UInt32, v = w.toInt32 ∧ result.toNat ≤ w.toNat := by
  induction buf generalizing result shift i with
  | nil => cases read
  | cons b rest ih =>
    -- or-ing in seven more bits never takes one away
    have grows : result.toNat ≤
        (result ||| ((b &&& 0x7F).toUInt32 <<< UInt32.ofNat shift)).toNat := by
      rw [UInt32.toNat_or]
      exact Nat.left_le_or
    simp only [readVarIntLoop] at read
    split at read
    · cases read
      exact ⟨_, rfl, grows⟩
    · split at read
      · cases read
      · obtain ⟨w, value, ge⟩ := ih read
        exact ⟨w, value, Nat.le_trans grows ge⟩

theorem accumulate_lt {p : Bytes} {result : UInt32} {shift : Nat}
    (small : result.toNat < 2 ^ shift) (room : shift + 7 * p.length < 32) :
    (accumulate result shift p).toNat < 2 ^ (shift + 7 * p.length) := by
  induction p generalizing result shift with
  | nil => exact small
  | cons b p ih =>
    simp only [List.length_cons] at room ⊢
    rw [accumulate, show shift + 7 * (p.length + 1) = shift + 7 + 7 * p.length by omega]
    apply ih _ (by omega)
    rw [UInt32.toNat_or]
    apply Nat.or_lt_two_pow
    · exact Nat.lt_of_lt_of_le small (Nat.pow_le_pow_right (by omega) (by omega))
    -- seven bits shifted by `shift` stay below `2 ^ (shift + 7)`; nothing is cut off below 32 bits
    · have low : (b &&& 0x7F).toUInt32.toNat < 2 ^ 7 := by
        rw [UInt8.toNat_toUInt32, UInt8.toNat_and]
        exact Nat.and_lt_two_pow _ (by decide)
      rw [UInt32.toNat_shiftLeft, UInt32.toNat_ofNat', Nat.mod_eq_of_lt (by omega : shift < 2 ^ 32),
        Nat.mod_eq_of_lt (by omega : shift < 32), Nat.shiftLeft_eq]
      apply Nat.lt_of_le_of_lt (Nat.mod_le _ _)
      rw [Nat.add_comm, Nat.pow_add]
      exact Nat.mul_lt_mul_of_pos_right low (Nat.two_pow_pos _)

end MCGate
