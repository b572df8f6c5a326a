import MCGate.Std.Text

/-!
# Decoding what was encoded

The encoding of a character is a lead byte and continuation bytes that the lossy decoder
accepts, so a text survives being encoded and decoded. The other way round a decoded text can
be longer than its bytes: each byte that is not valid turns into a character of three.
-/
namespace MCGate

namespace Utf8

theorem width_two {n : Nat} (low : 2 ≤ n) (high : n < 32) :
    width (UInt8.ofNat (n + 0xC0)) = 2 ∧ (UInt8.ofNat (n + 0xC0) &&& 0x1F).toNat = n := by
  have table : ∀ m : Fin 32, 2 ≤ m.val → width (UInt8.ofNat (m + 0xC0)) = 2 ∧
      (UInt8.ofNat (m + 0xC0) &&& 0x1F).toNat = m := by decide
  exact table ⟨n, high⟩ low

theorem width_three {n : Nat} (high : n < 16) :
    width (UInt8.ofNat (n + 0xE0)) = 3 ∧ (UInt8.ofNat (n + 0xE0) &&& 0x0F).toNat = n := by
  have table : ∀ m : Fin 16, width (UInt8.ofNat (m + 0xE0)) = 3 ∧
      (UInt8.ofNat (m + 0xE0) &&& 0x0F).toNat = m := by decide
  exact table ⟨n, high⟩

theorem width_four {n : Nat} (high : n < 5) :
    width (UInt8.ofNat (n + 0xF0)) = 4 ∧ (UInt8.ofNat (n + 0xF0) &&& 0x07).toNat = n := by
  have table : ∀ m : Fin 5, width (UInt8.ofNat (m + 0xF0)) = 4 ∧
      (UInt8.ofNat (m + 0xF0) &&& 0x07).toNat = m := by decide
  exact table ⟨n, high⟩

theorem continuation {n : Nat} (high : n < 64) :
    continues (UInt8.ofNat (n + 0x80)) ∧ (UInt8.ofNat (n + 0x80) &&& 0x3F).toNat = n := by
  have table : ∀ m : Fin 64, continues (UInt8.ofNat (m + 0x80)) ∧
      (UInt8.ofNat (m + 0x80) &&& 0x3F).toNat = m := by decide
  exact table ⟨n, high⟩

/-- The second of three bytes: no overlong form and no surrogate. -/
theorem follows_three {n m : Nat} (lead : n < 16) (high : m < 64) (long : n = 0 → 32 ≤ m)
    (surrogate : n = 13 → m < 32) :
    follows (UInt8.ofNat (n + 0xE0)) (UInt8.ofNat (m + 0x80)) := by
  have first : (UInt8.ofNat (n + 0xE0)).toNat = n + 0xE0 := by
    rw [UInt8.toNat_ofNat']
    omega
  have second : (UInt8.ofNat (m + 0x80)).toNat = m + 0x80 := by
    rw [UInt8.toNat_ofNat']
    omega
  simp only [follows, ← UInt8.toNat_inj, UInt8.le_iff_toNat_le, first, second, UInt8.reduceToNat]
  split_ifs <;> exact decide_eq_true (by omega)

/-- The second of four bytes: no overlong form and nothing past the last code point. -/
theorem follows_four {n m : Nat} (lead : n < 5) (high : m < 64) (long : n = 0 → 16 ≤ m)
    (past : n = 4 → m < 16) :
    follows (UInt8.ofNat (n + 0xF0)) (UInt8.ofNat (m + 0x80)) := by
  have first : (UInt8.ofNat (n + 0xF0)).toNat = n + 0xF0 := by
    rw [UInt8.toNat_ofNat']
    omega
  have second : (UInt8.ofNat (m + 0x80)).toNat = m + 0x80 := by
    rw [UInt8.toNat_ofNat']
    omega
  simp only [follows, ← UInt8.toNat_inj, UInt8.le_iff_toNat_le, first, second, UInt8.reduceToNat]
  split_ifs <;> exact decide_eq_true (by omega)

theorem width_one {n : Nat} (ascii : n < 128) :
    width (UInt8.ofNat n) = 1 ∧ (UInt8.ofNat n).toNat = n := by
  have table : ∀ m : Fin 128, width (UInt8.ofNat m) = 1 ∧ (UInt8.ofNat m).toNat = m := by decide
  exact table ⟨n, ascii⟩

end Utf8

open Utf8

theorem fromUtf8Lossy_utf8EncodeChar (c : Char) (rest : Bytes) :
    fromUtf8Lossy (String.utf8EncodeChar c ++ rest) = c :: fromUtf8Lossy rest := by
  have back : Char.ofNat c.val.toNat = c := Char.ofNat_toNat c
  have valid : c.val.toNat < 0xD800 ∨ 0xDFFF < c.val.toNat ∧ c.val.toNat < 0x110000 := c.valid
  rw [String.utf8EncodeChar]
  generalize c.val.toNat = v at back valid ⊢
  -- a lead byte and as many continuation bytes as the code point needs; each part is read
  -- back to the bits that were written
  split_ifs with one two three
  · obtain ⟨lead, bits⟩ := width_one (n := v) (by omega)
    rw [List.singleton_append, fromUtf8Lossy.eq_def]
    simp only [lead, scalar, List.foldl_nil, bits, back]
  · obtain ⟨lead, high⟩ := @width_two (v / 64 % 32) (by omega) (by omega)
    obtain ⟨more, low⟩ := @continuation (v % 64) (by omega)
    rw [List.cons_append, List.singleton_append, fromUtf8Lossy.eq_def]
    simp only [lead, more, if_true, scalar, List.foldl_cons, List.foldl_nil, high, low]
    rw [show v / 64 % 32 * 64 + v % 64 = v by omega, back]
  · obtain ⟨lead, high⟩ := @width_three (v / 4096 % 16) (by omega)
    obtain ⟨-, middle⟩ := @continuation (v / 64 % 64) (by omega)
    obtain ⟨more, low⟩ := @continuation (v % 64) (by omega)
    have second := @follows_three (v / 4096 % 16) (v / 64 % 64) (by omega) (by omega) (by omega)
      (by omega)
    rw [List.cons_append, List.cons_append, List.singleton_append, fromUtf8Lossy.eq_def]
    simp only [lead, second, more, if_true, scalar, List.foldl_cons, List.foldl_nil, high, middle,
      low]
    rw [show (v / 4096 % 16 * 64 + v / 64 % 64) * 64 + v % 64 = v by omega, back]
  · obtain ⟨lead, high⟩ := @width_four (v / 262144 % 8) (by omega)
    obtain ⟨-, upper⟩ := @continuation (v / 4096 % 64) (by omega)
    obtain ⟨more, lower⟩ := @continuation (v / 64 % 64) (by omega)
    obtain ⟨last, low⟩ := @continuation (v % 64) (by omega)
    have second := @follows_four (v / 262144 % 8) (v / 4096 % 64) (by omega) (by omega) (by omega)
      (by omega)
    rw [List.cons_append, List.cons_append, List.cons_append, List.singleton_append,
      fromUtf8Lossy.eq_def]
    simp only [lead, second, more, last, if_true, scalar, List.foldl_cons, List.foldl_nil, high,
      upper, lower, low]
    rw [show ((v / 262144 % 8 * 64 + v / 4096 % 64) * 64 + v / 64 % 64) * 64 + v % 64 = v by
      omega, back]

/-- Decoding the bytes of a text gives the text. -/
theorem fromUtf8Lossy_asBytes (text : Text) : fromUtf8Lossy (asBytes text) = text := by
  induction text with
  | nil => rfl
  | cons c text ih =>
    rw [asBytes, List.flatMap_cons, fromUtf8Lossy_utf8EncodeChar]
    exact congrArg (c :: ·) ih

theorem asBytes_append (front back : Text) :
    asBytes (front ++ back) = asBytes front ++ asBytes back :=
  List.flatMap_append

/-- An ASCII text has one byte for every character. -/
theorem asBytes_ascii {text : Text} (ascii : ∀ c ∈ text, c.toNat < 128) :
    asBytes text = text.map fun c => UInt8.ofNat c.toNat := by
  induction text with
  | nil => rfl
  | cons c text ih =>
    obtain ⟨here, later⟩ := List.forall_mem_cons.mp ascii
    have one : c.val.toNat ≤ 127 := Nat.le_of_lt_succ here
    rw [asBytes, List.flatMap_cons, List.map_cons, String.utf8EncodeChar]
    simp only [one, if_true, List.singleton_append]
    exact congrArg _ (ih later)

theorem length_asBytes_cons (c : Char) (text : Text) :
    (asBytes (c :: text)).length = c.utf8Size + (asBytes text).length := by
  rw [asBytes, List.flatMap_cons, List.length_append, String.length_utf8EncodeChar]
  rfl

set_option maxRecDepth 4000 in
/-- Every byte becomes at most three: what is not valid is replaced by a character of three. -/
theorem length_asBytes_fromUtf8Lossy_le (bytes : Bytes) :
    (asBytes (fromUtf8Lossy bytes)).length ≤ 3 * bytes.length := by
  have none : (asBytes []).length = 0 := rfl
  have replaced : replacement.utf8Size = 3 := by decide
  have one {b : UInt8} (ascii : width b = 1) : (scalar b.toNat []).utf8Size = 1 := by
    have table : ∀ n : Fin 256, width (UInt8.ofNat n) = 1 →
        (scalar (UInt8.ofNat n).toNat []).utf8Size = 1 := by decide
    have byte := table ⟨b.toNat, b.toNat_lt⟩
    rw [UInt8.ofNat_toNat] at byte
    exact byte ascii
  fun_induction fromUtf8Lossy bytes
  case case1 => exact Nat.le_refl 0
  case case2 b0 rest ascii ih =>
    rw [length_asBytes_cons, one ascii, List.length_cons]
    omega
  -- a character of several bytes takes no more than four
  all_goals
    simp only [length_asBytes_cons, replaced, none, List.length_cons, List.length_nil] at *
    grind [Char.utf8Size_le_four]

end MCGate
