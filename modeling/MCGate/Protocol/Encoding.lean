import MCGate.Protocol.ReconnectProtocol
import MCGate.Std.Utf8

/-!
# What the writers write is read back

Each writer of the packet primitives is undone by its reader. The loop of `write_var_int`
hands on the number without its low seven bits, the loop of `read_var_int` puts seven bits
above those it has, so between them the sum stays the number that was written.
-/
namespace MCGate

open Reader

/-! ### VarInts -/

private theorem low_seven (w : UInt32) : (w &&& 0x7F).toNat = w.toNat % 128 := by
  rw [UInt32.toNat_and]
  exact Nat.and_two_pow_sub_one_eq_mod w.toNat 7

private theorem shift_seven (w : UInt32) : (w >>> 7).toNat = w.toNat / 128 := by
  rw [UInt32.toNat_shiftRight]
  exact Nat.shiftRight_eq_div_pow w.toNat 7

/-- The test that ends the loop of `write_var_int`. -/
theorem high_bits_eq_zero_iff {w : UInt32} : w &&& ~~~(0x7F : UInt32) = 0 ↔ w.toNat < 128 := by
  constructor
  · intro none
    -- shifted to the right the mask keeps all the bits there are
    have shifted : (w >>> 7) &&& 0x1FFFFFF = 0 := by
      have mask : ~~~(0x7F : UInt32) >>> 7 = 0x1FFFFFF := by decide
      rw [← mask, ← UInt32.shiftRight_and, none]
      rfl
    have bits := congrArg UInt32.toNat shifted
    rw [UInt32.toNat_and, shift_seven] at bits
    have quotient : w.toNat / 128 % 2 ^ 25 = 0 :=
      (Nat.and_two_pow_sub_one_eq_mod (w.toNat / 128) 25).symm.trans bits
    have below := w.toNat_lt
    omega
  · intro small
    have low : w &&& 0x7F = w := by
      rw [← UInt32.toNat_inj, low_seven, Nat.mod_eq_of_lt small]
    rw [← low, UInt32.and_assoc, UInt32.and_not_self, UInt32.and_zero]

private theorem continuing_byte (w : UInt32) :
    ((w &&& 0x7F) ||| 0x80).toUInt8.toNat = w.toNat % 128 + 128 := by
  have low : (w &&& 0x7F).toNat < 2 ^ 7 := by
    rw [low_seven]
    exact Nat.mod_lt _ (by decide)
  have joined := Nat.two_pow_add_eq_or_of_lt low 1
  rw [UInt32.toNat_toUInt8, UInt32.toNat_or, Nat.or_comm]
  rw [low_seven] at joined ⊢
  have top : (0x80 : UInt32).toNat = 2 ^ 7 * 1 := rfl
  rw [top, ← joined]
  omega

private theorem and_0x7F (b : UInt8) : (b &&& 0x7F).toUInt32.toNat = b.toNat % 128 := by
  rw [UInt8.toNat_toUInt32, UInt8.toNat_and]
  exact Nat.and_two_pow_sub_one_eq_mod b.toNat 7

set_option maxRecDepth 4000 in
private theorem and_0x80_eq_zero_iff (b : UInt8) : b &&& 0x80 = 0 ↔ b.toNat < 128 := by
  have table : ∀ n : Fin 256, UInt8.ofNat n &&& 0x80 = 0 ↔ n.val < 128 := by decide
  simpa using table ⟨b.toNat, b.toNat_lt⟩

/-- Seven more bits, put above those read so far. -/
theorem or_shifted {result x : UInt32} {shift : Nat} (small : result.toNat < 2 ^ shift)
    (fits : result.toNat + x.toNat * 2 ^ shift < 2 ^ 32) (room : shift < 32) :
    (result ||| (x <<< UInt32.ofNat shift)).toNat = result.toNat + x.toNat * 2 ^ shift := by
  have inside : x.toNat * 2 ^ shift < 2 ^ 32 := by omega
  rw [UInt32.toNat_or, UInt32.toNat_shiftLeft, UInt32.toNat_ofNat',
    Nat.mod_eq_of_lt (by omega : shift < 2 ^ 32), Nat.mod_eq_of_lt room, Nat.shiftLeft_eq,
    Nat.mod_eq_of_lt inside, Nat.or_comm, Nat.mul_comm, ← Nat.two_pow_add_eq_or_of_lt small,
    Nat.add_comm]

private theorem readVarIntLoop_writeVarIntLoop {n i : Nat} {w result : UInt32} (rounds : n + i = 5)
    (some : i < 5) (small : result.toNat < 2 ^ (7 * i))
    (fits : result.toNat + w.toNat * 2 ^ (7 * i) < 2 ^ 32) :
    ∃ whole : UInt32, whole.toNat = result.toNat + w.toNat * 2 ^ (7 * i) ∧
      readVarIntLoop result (7 * i) i (writeVarIntLoop n w) =
        .ok (whole.toInt32, i + (writeVarIntLoop n w).length) := by
  have room : 7 * i < 32 := by omega
  induction n generalizing i w result with
  | zero => omega
  | succ n ih =>
    rw [writeVarIntLoop]
    by_cases last : w.toNat < 128
    · rw [if_pos (high_bits_eq_zero_iff.mpr last)]
      have byte : w.toUInt8.toNat = w.toNat := by
        rw [UInt32.toNat_toUInt8]
        omega
      have low : (w.toUInt8 &&& 0x7F).toUInt32.toNat = w.toNat := by
        rw [and_0x7F, byte, Nat.mod_eq_of_lt last]
      refine ⟨result ||| ((w.toUInt8 &&& 0x7F).toUInt32 <<< UInt32.ofNat (7 * i)), ?_, ?_⟩
      · rw [or_shifted small (by rwa [low]) room, low]
      · rw [readVarIntLoop, if_pos ((and_0x80_eq_zero_iff _).mpr (by rwa [byte]))]
        rfl
    · rw [if_neg (mt high_bits_eq_zero_iff.mp last)]
      generalize byteEq : ((w &&& 0x7F) ||| 0x80).toUInt8 = byte
      have value : byte.toNat = w.toNat % 128 + 128 := by
        rw [← byteEq, continuing_byte]
      have low : (byte &&& 0x7F).toUInt32.toNat = w.toNat % 128 := by
        rw [and_0x7F, value]
        omega
      have next : 2 ^ (7 * (i + 1)) = 128 * 2 ^ (7 * i) := by
        rw [show 7 * (i + 1) = 7 + 7 * i by omega, Nat.pow_add]
      -- the bits read by now and those still to come make up the number as before
      have parts : w.toNat * 2 ^ (7 * i) =
          w.toNat % 128 * 2 ^ (7 * i) + w.toNat / 128 * 2 ^ (7 * (i + 1)) := by
        rw [next, ← Nat.mul_assoc, ← Nat.add_mul]
        congr 1
        omega
      have later : 7 * (i + 1) < 32 := by
        have quotient : 1 * 2 ^ (7 * (i + 1)) ≤ w.toNat / 128 * 2 ^ (7 * (i + 1)) :=
          Nat.mul_le_mul_right _ (by omega)
        exact (Nat.pow_lt_pow_iff_right (by decide)).mp (show 2 ^ (7 * (i + 1)) < 2 ^ 32 by omega)
      have sum : (result ||| ((byte &&& 0x7F).toUInt32 <<< UInt32.ofNat (7 * i))).toNat =
          result.toNat + w.toNat % 128 * 2 ^ (7 * i) := by
        rw [or_shifted small (by rw [low]; omega) room, low]
      have below : w.toNat % 128 * 2 ^ (7 * i) ≤ 127 * 2 ^ (7 * i) :=
        Nat.mul_le_mul_right _ (by omega)
      obtain ⟨whole, same, read⟩ :=
        @ih (i + 1) (w >>> 7) (result ||| ((byte &&& 0x7F).toUInt32 <<< UInt32.ofNat (7 * i)))
          (by omega) (by omega) (by rw [sum]; omega) (by rw [sum, shift_seven]; omega) later
      rw [sum, shift_seven] at same
      refine ⟨whole, by omega, ?_⟩
      rw [readVarIntLoop, if_neg (mt (and_0x80_eq_zero_iff _).mp (by omega)), if_neg (by omega),
        show 7 * i + 7 = 7 * (i + 1) by omega, read, List.length_cons]
      congr 2
      omega

/-- What `write_var_int` writes, `read_var_int` reads back to the last byte. -/
theorem reads_writeVarInt (value : Int32) : Reads readVarInt (writeVarInt value) value := by
  obtain ⟨whole, same, read⟩ := @readVarIntLoop_writeVarIntLoop 5 0 value.toUInt32 0 rfl
    (by decide) (by decide) (by simpa using value.toUInt32.toNat_lt)
  have whole_eq : whole = value.toUInt32 := by
    rw [← UInt32.toNat_inj, same]
    simp
  rw [Reads, readVarInt, writeVarInt, read, whole_eq, Nat.zero_add]
  rfl

/-- The handshake and the Login Start both carry packet id 0. -/
theorem reads_packetId : Reads readVarInt (writeVarInt 0x00) 0 :=
  reads_writeVarInt 0

theorem readVarInt_writeVarInt (value : Int32) (rest : Bytes) :
    readVarInt (writeVarInt value ++ rest) = .ok (value, (writeVarInt value).length) :=
  (reads_writeVarInt value).append readVarInt_local rest

theorem length_writeVarInt (value : Int32) :
    1 ≤ (writeVarInt value).length ∧ (writeVarInt value).length ≤ 5 :=
  readVarInt_size (reads_writeVarInt value)

/-- The bytes of a VarInt do not end it before the last one. -/
theorem readVarInt_take {enc : Bytes} {value : Int32} {n : Nat} (reads : Reads readVarInt enc value)
    (short : n < enc.length) : readVarInt (enc.take n) = .error .incomplete := by
  by_contra decided
  have whole := readVarInt_append decided (enc.drop n)
  rw [List.take_append_drop, reads] at whole
  exact reads.cut readVarInt_local short whole.symm

/-- More rounds than the number has groups of seven bits change nothing. -/
theorem writeVarIntLoop_enough {n : Nat} {w : UInt32} (rounds : 0 < n)
    (fits : w.toNat < 2 ^ (7 * n)) (more : Nat) :
    writeVarIntLoop (n + more) w = writeVarIntLoop n w := by
  induction n generalizing w with
  | zero => omega
  | succ n ih =>
    rw [Nat.add_right_comm, writeVarIntLoop, writeVarIntLoop]
    by_cases last : w.toNat < 128
    · rw [if_pos (high_bits_eq_zero_iff.mpr last), if_pos (high_bits_eq_zero_iff.mpr last)]
    · rw [if_neg (mt high_bits_eq_zero_iff.mp last), if_neg (mt high_bits_eq_zero_iff.mp last)]
      have next : 2 ^ (7 * (n + 1)) = 128 * 2 ^ (7 * n) := by
        rw [show 7 * (n + 1) = 7 + 7 * n by omega, Nat.pow_add]
      have positive : 0 < n := by
        by_contra none
        obtain rfl : n = 0 := by omega
        exact last fits
      rw [ih positive (by rw [shift_seven]; omega)]

/-- The loop of `write_var_int` has no bound of its own, and five rounds end it. -/
theorem writeVarInt_rounds (value : Int32) (more : Nat) :
    writeVarIntLoop (5 + more) value.toUInt32 = writeVarInt value :=
  writeVarIntLoop_enough (by decide) (Nat.lt_trans value.toUInt32.toNat_lt (by decide)) more

/-- An accepted VarInt is read off any buffer that starts with the same bytes. -/
theorem readVarInt_of_take_eq {buf other : Bytes} {v : Int32} {n : Nat}
    (read : readVarInt buf = .ok (v, n)) (same : other.take n = buf.take n) :
    readVarInt other = .ok (v, n) := by
  rw [← List.take_append_drop n other, same]
  exact readVarInt_local.stable read _

/-- VarInts as a code for streams: what is written is read back whatever follows and not before
it is complete, a result is decided by the bytes consumed, and only a buffer of fewer than five
continuing bytes waits for more. -/
theorem varInt_streams :
    (∀ (v : Int32) (rest : Bytes),
      readVarInt (writeVarInt v ++ rest) = .ok (v, (writeVarInt v).length) ∧
        1 ≤ (writeVarInt v).length ∧ (writeVarInt v).length ≤ 5) ∧
    (∀ (v : Int32) (cut : Bytes), cut <+: writeVarInt v → cut ≠ writeVarInt v →
      readVarInt cut = .error .incomplete) ∧
    (∀ (buf : Bytes) (v : Int32) (n : Nat), readVarInt buf = .ok (v, n) →
      1 ≤ n ∧ n ≤ 5 ∧ n ≤ buf.length ∧
        ∀ other : Bytes, other.take n = buf.take n → readVarInt other = .ok (v, n)) ∧
    (∀ buf : Bytes, readVarInt buf = .error .incomplete →
      buf.length < 5 ∧ ∀ b ∈ buf, b &&& 0x80 ≠ 0) ∧
    (∀ buf more : Bytes, readVarInt buf ≠ .error .incomplete →
      readVarInt (buf ++ more) = readVarInt buf) := by
  refine ⟨fun v rest => ⟨readVarInt_writeVarInt v rest, length_writeVarInt v⟩, ?_, ?_, ?_, ?_⟩
  · rintro v cut ⟨back, whole⟩ strict
    have short : cut.length < (writeVarInt v).length := by
      rw [← whole, List.length_append, Nat.lt_add_right_iff_pos, List.length_pos_iff]
      rintro rfl
      exact strict (by rw [← whole, List.append_nil])
    have front : (writeVarInt v).take cut.length = cut := by
      rw [← whole, List.take_append_length]
    rw [← front]
    exact readVarInt_take (reads_writeVarInt v) short
  · intro buf v n read
    have size := readVarInt_size read
    exact ⟨size.1, size.2, readVarInt_local.within read, fun _ => readVarInt_of_take_eq read⟩
  · intro buf waits
    obtain ⟨run, short⟩ := readVarInt_incomplete_iff.mp waits
    exact ⟨short, run⟩
  · exact fun buf more decided => readVarInt_append decided more

/-! ### Strings -/

private theorem readString_eq_ok {buf : Bytes} {maxLength : Int32} {value : Text} {n : Nat} :
    readString buf maxLength = .ok (value, n) ↔
      ∃ length consumed, readVarInt buf = .ok (length, consumed) ∧
        (0 ≤ length ∧ length.toInt ≤ saturatingMul4 maxLength) ∧
        n = consumed + length.toNatClampNeg ∧ n ≤ buf.length ∧
        value = fromUtf8Lossy ((buf.drop consumed).take length.toNatClampNeg) := by
  unfold readString
  cases read : readVarInt buf with
  | error e => simp
  | ok x =>
    obtain ⟨length, consumed⟩ := x
    simp only [Except.ok.injEq, Prod.mk.injEq]
    constructor
    · intro accepted
      split at accepted
      · cases accepted
      next range =>
        split at accepted
        next inside =>
          simp only [Except.ok.injEq, Prod.mk.injEq] at accepted
          obtain ⟨rfl, rfl⟩ := accepted
          rw [not_or, Int32.not_lt, Int.not_lt] at range
          exact ⟨length, consumed, ⟨rfl, rfl⟩, range, rfl, inside, rfl⟩
        · cases accepted
    · rintro ⟨_, _, ⟨rfl, rfl⟩, ⟨positive, short⟩, rfl, inside, rfl⟩
      rw [if_neg (not_or.mpr ⟨Int32.not_lt.mpr positive, Int.not_lt.mpr short⟩), if_pos inside]

/-- A string is decided by its own bytes. -/
theorem readString_local (maxLength : Int32) : Local fun buf => readString buf maxLength where
  within read := by
    obtain ⟨length, consumed, -, -, -, inside, -⟩ := readString_eq_ok.mp read
    exact inside
  stable {buf value n} read r := by
    obtain ⟨length, consumed, size, range, rfl, inside, rfl⟩ := readString_eq_ok.mp read
    have front := readVarInt_local.take size (Nat.le_add_right consumed length.toNatClampNeg)
    have behind : consumed ≤ (buf.take (consumed + length.toNatClampNeg)).length := by
      rw [List.length_take]
      omega
    refine readString_eq_ok.mpr ⟨length, consumed, ?_, range, rfl, ?_, ?_⟩
    · rw [readVarInt_append (by rw [front]; simp), front]
    · rw [List.length_append, List.length_take]
      omega
    · rw [List.drop_append_of_le_length behind, List.drop_take, Nat.add_sub_cancel_left,
        List.take_append_of_le_length (by rw [List.length_take, List.length_drop]; omega),
        List.take_take, Nat.min_self]

/-- A string within the reader's limit is read back to its last byte. -/
theorem reads_writeString {value : Text} {maxLength : Int32}
    (short : ((asBytes value).length : Int) ≤ saturatingMul4 maxLength) :
    Reads (fun buf => readString buf maxLength) (writeString value) value := by
  have small : (asBytes value).length < 2 ^ 31 := by
    unfold saturatingMul4 at short
    omega
  refine readString_eq_ok.mpr ⟨Int32.ofNat (asBytes value).length, _,
    readVarInt_writeVarInt _ _, ⟨?_, ?_⟩, ?_, Nat.le_refl _, ?_⟩
  · rw [Int32.le_iff_toInt_le, Int32.toInt_ofNat_of_lt small]
    exact Int.natCast_nonneg _
  · rwa [Int32.toInt_ofNat_of_lt small]
  · rw [Int32.toNatClampNeg_ofNat_of_lt small, writeString, List.length_append]
  · rw [Int32.toNatClampNeg_ofNat_of_lt small, writeString, List.drop_append_length, List.take_length,
      fromUtf8Lossy_asBytes]

end MCGate
