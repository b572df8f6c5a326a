import Mathlib.Algebra.Group.Nat.Defs
import Mathlib.Data.List.Basic

/-!
# Big-endian numbers

A number written in a fixed count of bytes, the most significant one first. Reading undoes
writing for every number that fits, and writing undoes reading for every row of that many bytes:
no byte is lost to a leading zero.
-/
namespace MCGate.BigEndian

def encode : Nat → Nat → List UInt8
  | 0, _ => []
  | width + 1, value => UInt8.ofNat (value / 256 ^ width) :: encode width (value % 256 ^ width)

def decode : List UInt8 → Nat
  | [] => 0
  | byte :: rest => byte.toNat * 256 ^ rest.length + decode rest

@[simp] theorem length_encode (width value : Nat) : (encode width value).length = width := by
  induction width generalizing value with
  | zero => rfl
  | succ width ih => rw [encode, List.length_cons, ih]

theorem decode_lt (bytes : List UInt8) : decode bytes < 256 ^ bytes.length := by
  induction bytes with
  | nil => exact Nat.one_pos
  | cons byte rest ih =>
    have top := Nat.mul_le_mul_right (256 ^ rest.length) (Nat.le_of_lt_succ byte.toNat_lt)
    rw [decode, List.length_cons, Nat.pow_succ]
    omega

theorem encode_decode (bytes : List UInt8) : encode bytes.length (decode bytes) = bytes := by
  induction bytes with
  | nil => rfl
  | cons byte rest ih =>
    have below := decode_lt rest
    -- the first byte is the quotient, the others are the remainder
    have quotient : decode (byte :: rest) / 256 ^ rest.length = byte.toNat := by
      rw [decode, Nat.add_comm, Nat.add_mul_div_right _ _ (Nat.pow_pos (by decide)),
        Nat.div_eq_of_lt below, Nat.zero_add]
    have remainder : decode (byte :: rest) % 256 ^ rest.length = decode rest := by
      rw [decode, Nat.add_comm, Nat.add_mul_mod_self_right, Nat.mod_eq_of_lt below]
    rw [List.length_cons, encode, quotient, remainder, ih, UInt8.ofNat_toNat]

theorem decode_encode {width value : Nat} (fits : value < 256 ^ width) :
    decode (encode width value) = value := by
  induction width generalizing value with
  | zero =>
    rw [Nat.pow_zero] at fits
    rw [encode, decode]
    omega
  | succ width ih =>
    have small : value / 256 ^ width < 256 := by
      apply Nat.div_lt_of_lt_mul
      rwa [← Nat.pow_succ]
    have byte : (UInt8.ofNat (value / 256 ^ width)).toNat = value / 256 ^ width :=
      Nat.mod_eq_of_lt small
    rw [encode, decode, byte, length_encode, ih (Nat.mod_lt _ (Nat.pow_pos (by decide))),
      Nat.mul_comm, Nat.div_add_mod]

end MCGate.BigEndian
