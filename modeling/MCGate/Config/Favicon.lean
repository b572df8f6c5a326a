import MCGate.Config.Loader

/-!
# The favicon's base64

`base64_encode` puts each three bytes of a favicon into four characters. Read as RFC 4648
says, the text gives exactly these bytes again, and no other text does: the decoder here is
the strict one, which takes the padding only where it belongs and no set bits under it.
-/
namespace MCGate.Config

/-! ### RFC 4648 -/

/-- The number a character of the base64 alphabet stands for. -/
def sextet (c : Char) : Option Nat :=
  if 65 ≤ c.toNat ∧ c.toNat ≤ 90 then some (c.toNat - 65)
  else if 97 ≤ c.toNat ∧ c.toNat ≤ 122 then some (c.toNat - 97 + 26)
  else if 48 ≤ c.toNat ∧ c.toNat ≤ 57 then some (c.toNat - 48 + 52)
  else if c = '+' then some 62
  else if c = '/' then some 63
  else none

/-- Four characters are 24 bits, the last four of a text 16 or 8 where padding ends them. -/
def base64Decode : Text → Option Bytes
  | [] => some []
  | c0 :: c1 :: c2 :: c3 :: rest => do
    let s0 ← sextet c0
    let s1 ← sextet c1
    let b0 := UInt8.ofNat (s0 * 4 + s1 / 16)
    if c2 = '=' ∧ c3 = '=' ∧ rest = [] then
      if s1 % 16 = 0 then some [b0] else none
    else
      let s2 ← sextet c2
      let b1 := UInt8.ofNat (s1 % 16 * 16 + s2 / 4)
      if c3 = '=' ∧ rest = [] then
        if s2 % 4 = 0 then some [b0, b1] else none
      else
        let s3 ← sextet c3
        let more ← base64Decode rest
        some (b0 :: b1 :: UInt8.ofNat (s2 % 4 * 64 + s3) :: more)
  | _ => none

example : base64Decode "TUNHYXRl".toList = some (literal "MCGate") := by decide

/-! ### The alphabet -/

/-- The alphabet of the code is the one of the standard. -/
theorem sextet_base64Alphabet : ∀ k < 64, sextet (base64Alphabet.getD k '=') = some k :=
  of_spelled (fun text => ∀ k < 64, sextet (text.getD k '=') = some k) rfl (by decide +kernel)

private theorem sextet_base64Char {n : UInt8} {k : Nat} (bits : n.toNat = k) (small : k < 64) :
    sextet (base64Char n) = some k := by
  rw [base64Char, bits]
  exact sextet_base64Alphabet k small

private theorem ne_padding_of_sextet {c : Char} {k : Nat} (digit : sextet c = some k) :
    c ≠ '=' := by
  rintro rfl
  cases digit

/-- A character has one number at most, so the alphabet gives it back. -/
theorem base64Alphabet_of_sextet {c : Char} {k : Nat} (digit : sextet c = some k) :
    k < 64 ∧ base64Alphabet.getD k '=' = c := by
  -- the five ranges of the alphabet, in the order of `sextet`
  have upper : ∀ i < 26, base64Alphabet.getD i '=' = Char.ofNat (65 + i) :=
    of_spelled (fun text => ∀ i < 26, text.getD i '=' = Char.ofNat (65 + i)) rfl
      (by decide +kernel)
  have lower : ∀ i < 26, base64Alphabet.getD (i + 26) '=' = Char.ofNat (97 + i) :=
    of_spelled (fun text => ∀ i < 26, text.getD (i + 26) '=' = Char.ofNat (97 + i)) rfl
      (by decide +kernel)
  have figures : ∀ i < 10, base64Alphabet.getD (i + 52) '=' = Char.ofNat (48 + i) :=
    of_spelled (fun text => ∀ i < 10, text.getD (i + 52) '=' = Char.ofNat (48 + i)) rfl
      (by decide +kernel)
  have same (lo : Nat) (above : lo ≤ c.toNat) : Char.ofNat (lo + (c.toNat - lo)) = c := by
    rw [Nat.add_sub_of_le above, Char.ofNat_toNat]
  unfold sextet at digit
  split_ifs at digit with isUpper isLower isFigure isPlus isSlash
  · cases digit
    exact ⟨by omega, by rw [upper _ (by omega), same 65 isUpper.1]⟩
  · cases digit
    exact ⟨by omega, by rw [lower _ (by omega), same 97 isLower.1]⟩
  · cases digit
    exact ⟨by omega, by rw [figures _ (by omega), same 48 isFigure.1]⟩
  · cases digit
    exact ⟨by omega, isPlus ▸ rfl⟩
  · cases digit
    exact ⟨by omega, isSlash ▸ rfl⟩

/-! ### The bits of a chunk -/

/-- Shifted to the left past a number, the bits of both are there. -/
theorem toNat_shifted_or {hi lo k : UInt8} (below : k.toNat < 8)
    (small : lo.toNat < 2 ^ k.toNat) (fits : hi.toNat * 2 ^ k.toNat < 256) :
    ((hi <<< k) ||| lo).toNat = hi.toNat * 2 ^ k.toNat + lo.toNat := by
  rw [UInt8.toNat_or, UInt8.toNat_shiftLeft, Nat.mod_eq_of_lt below, Nat.shiftLeft_eq,
    Nat.mod_eq_of_lt fits, Nat.mul_comm, Nat.two_pow_add_eq_or_of_lt small]

private theorem toNat_low {b mask : UInt8} {k : Nat} (ones : mask.toNat = 2 ^ k - 1) :
    (b &&& mask).toNat = b.toNat % 2 ^ k := by
  rw [UInt8.toNat_and, ones, Nat.and_two_pow_sub_one_eq_mod]

private theorem toNat_high {b k : UInt8} (below : k.toNat < 8) :
    (b >>> k).toNat = b.toNat / 2 ^ k.toNat := by
  rw [UInt8.toNat_shiftRight, Nat.mod_eq_of_lt below, Nat.shiftRight_eq_div_pow]

private theorem sextet_first (b0 : UInt8) :
    sextet (base64Char (b0 >>> 2)) = some (b0.toNat / 4) := by
  have byte := b0.toNat_lt
  exact sextet_base64Char (toNat_high (by decide)) (by omega)

private theorem second_bits (b0 b1 : UInt8) :
    (((b0 &&& 0x03) <<< 4) ||| (b1 >>> 4)).toNat = b0.toNat % 4 * 16 + b1.toNat / 16 := by
  have low : (b0 &&& 0x03).toNat = b0.toNat % 4 := toNat_low (k := 2) rfl
  have high : (b1 >>> 4).toNat = b1.toNat / 16 := toNat_high (by decide)
  have four : (2 : Nat) ^ (4 : UInt8).toNat = 16 := rfl
  have byte := b1.toNat_lt
  rw [toNat_shifted_or (by decide) (by omega) (by rw [low, four]; omega), low, high, four]

private theorem sextet_second (b0 b1 : UInt8) :
    sextet (base64Char (((b0 &&& 0x03) <<< 4) ||| (b1 >>> 4))) =
      some (b0.toNat % 4 * 16 + b1.toNat / 16) := by
  have byte := b1.toNat_lt
  exact sextet_base64Char (second_bits b0 b1) (by omega)

private theorem third_bits (b1 b2 : UInt8) :
    (((b1 &&& 0x0f) <<< 2) ||| (b2 >>> 6)).toNat = b1.toNat % 16 * 4 + b2.toNat / 64 := by
  have low : (b1 &&& 0x0f).toNat = b1.toNat % 16 := toNat_low (k := 4) rfl
  have high : (b2 >>> 6).toNat = b2.toNat / 64 := toNat_high (by decide)
  have two : (2 : Nat) ^ (2 : UInt8).toNat = 4 := rfl
  have byte := b2.toNat_lt
  rw [toNat_shifted_or (by decide) (by omega) (by rw [low, two]; omega), low, high, two]

private theorem sextet_third (b1 b2 : UInt8) :
    sextet (base64Char (((b1 &&& 0x0f) <<< 2) ||| (b2 >>> 6))) =
      some (b1.toNat % 16 * 4 + b2.toNat / 64) := by
  have byte := b2.toNat_lt
  exact sextet_base64Char (third_bits b1 b2) (by omega)

private theorem sextet_fourth (b2 : UInt8) :
    sextet (base64Char (b2 &&& 0x3f)) = some (b2.toNat % 64) :=
  sextet_base64Char (toNat_low (k := 6) rfl) (by omega)

/-- The chunk ends: the bits of the missing byte are zero. -/
theorem sextet_second_last (b0 : UInt8) :
    sextet (base64Char ((b0 &&& 0x03) <<< 4)) = some (b0.toNat % 4 * 16) := by
  have filled := sextet_second b0 0
  rwa [show (0 : UInt8) >>> 4 = 0 from rfl, UInt8.or_zero] at filled

private theorem sextet_third_last (b1 : UInt8) :
    sextet (base64Char ((b1 &&& 0x0f) <<< 2)) = some (b1.toNat % 16 * 4) := by
  have filled := sextet_third b1 0
  rwa [show (0 : UInt8) >>> 6 = 0 from rfl, UInt8.or_zero] at filled

/-! ### Encoding -/

private theorem ofNat_eq_byte {b : UInt8} {k : Nat} (same : k = b.toNat) : UInt8.ofNat k = b := by
  rw [same, UInt8.ofNat_toNat]

private theorem base64Decode_base64Encode (data : Bytes) :
    base64Decode (base64Encode data) = some data := by
  fun_induction base64Encode data with
  | case1 => rfl
  -- one byte: two digits, the second with four bits to spare
  | case2 b0 =>
    have zero : b0.toNat % 4 * 16 % 16 = 0 := by omega
    have first : UInt8.ofNat (b0.toNat / 4 * 4 + b0.toNat % 4 * 16 / 16) = b0 :=
      ofNat_eq_byte (by omega)
    simp only [base64Decode, sextet_first, sextet_second_last, Option.bind_eq_bind,
      Option.bind_some, and_self, if_true, zero, first]
  -- two bytes: three digits, the third with two bits to spare
  | case3 b0 b1 =>
    have byte := b1.toNat_lt
    have zero : b1.toNat % 16 * 4 % 4 = 0 := by omega
    have first : UInt8.ofNat (b0.toNat / 4 * 4 + (b0.toNat % 4 * 16 + b1.toNat / 16) / 16) = b0 :=
      ofNat_eq_byte (by omega)
    have second : UInt8.ofNat ((b0.toNat % 4 * 16 + b1.toNat / 16) % 16 * 16 +
        b1.toNat % 16 * 4 / 4) = b1 := ofNat_eq_byte (by omega)
    have digit := ne_padding_of_sextet (sextet_third_last b1)
    simp only [base64Decode, sextet_first, sextet_second, sextet_third_last, Option.bind_eq_bind,
      Option.bind_some, digit, false_and, if_false, and_self, if_true, zero, first, second]
  -- three bytes: four digits, and none of them is taken for padding
  | case4 b0 b1 b2 rest ih =>
    have byte := b1.toNat_lt
    have byte' := b2.toNat_lt
    have first : UInt8.ofNat (b0.toNat / 4 * 4 + (b0.toNat % 4 * 16 + b1.toNat / 16) / 16) = b0 :=
      ofNat_eq_byte (by omega)
    have second : UInt8.ofNat ((b0.toNat % 4 * 16 + b1.toNat / 16) % 16 * 16 +
        (b1.toNat % 16 * 4 + b2.toNat / 64) / 4) = b1 := ofNat_eq_byte (by omega)
    have third : UInt8.ofNat ((b1.toNat % 16 * 4 + b2.toNat / 64) % 4 * 64 + b2.toNat % 64) = b2 :=
      ofNat_eq_byte (by omega)
    have digit := ne_padding_of_sextet (sextet_third b1 b2)
    have digit' := ne_padding_of_sextet (sextet_fourth b2)
    simp only [base64Decode, sextet_first, sextet_second, sextet_third, sextet_fourth, ih,
      Option.bind_eq_bind, Option.bind_some, digit, digit', false_and, if_false, first, second,
      third]

private theorem length_base64Encode (data : Bytes) :
    (base64Encode data).length = 4 * ((data.length + 2) / 3) := by
  fun_induction base64Encode data with
  | case1 => rfl
  | case2 => simp only [List.length_cons, List.length_nil]
  | case3 => simp only [List.length_cons, List.length_nil]
  | case4 b0 b1 b2 rest ih =>
    simp only [List.length_cons, ih]
    omega

/-- Characters of the alphabet, and then as many `=` as the last chunk lacks bytes. -/
theorem base64Encode_padded (data : Bytes) :
    ∃ digits, base64Encode data = digits ++ List.replicate ((3 - data.length % 3) % 3) '=' ∧
      ∀ c ∈ digits, (sextet c).isSome := by
  fun_induction base64Encode data with
  | case1 => exact ⟨[], rfl, nofun⟩
  | case2 b0 =>
    refine ⟨[_, _], rfl, ?_⟩
    simp [sextet_first, sextet_second_last]
  | case3 b0 b1 =>
    refine ⟨[_, _, _], rfl, ?_⟩
    simp [sextet_first, sextet_second, sextet_third_last]
  | case4 b0 b1 b2 rest ih =>
    obtain ⟨digits, padded, known⟩ := ih
    -- a full chunk lacks nothing, so the padding is that of the rest
    have lacks : (b0 :: b1 :: b2 :: rest).length % 3 = rest.length % 3 := by
      simp only [List.length_cons]
      omega
    have chunk : ∃ front, base64Encode (b0 :: b1 :: b2 :: rest) = front ++ base64Encode rest ∧
        ∀ c ∈ front, (sextet c).isSome := by
      refine ⟨[_, _, _, _], rfl, ?_⟩
      simp [sextet_first, sextet_second, sextet_third, sextet_fourth]
    obtain ⟨front, whole, known'⟩ := chunk
    refine ⟨front ++ digits, ?_, List.forall_mem_append.mpr ⟨known', known⟩⟩
    rw [lacks, List.append_assoc, ← padded]
    exact whole

/-! ### Only encodings are decoded -/

section
variable {s0 s3 : Nat} (s1 s2 : Nat) {c : Char}

private theorem base64Char_of_bits {n : UInt8} {k : Nat} (bits : n.toNat = k)
    (digit : sextet c = some k) : base64Char n = c := by
  rw [base64Char, bits]
  exact (base64Alphabet_of_sextet digit).2

private theorem toNat_first_byte (small0 : s0 < 64) (small1 : s1 < 64) :
    (UInt8.ofNat (s0 * 4 + s1 / 16)).toNat = s0 * 4 + s1 / 16 :=
  UInt8.toNat_ofNat_of_lt' (show _ < 256 by omega)

private theorem toNat_second_byte (small2 : s2 < 64) :
    (UInt8.ofNat (s1 % 16 * 16 + s2 / 4)).toNat = s1 % 16 * 16 + s2 / 4 :=
  UInt8.toNat_ofNat_of_lt' (show _ < 256 by omega)

private theorem toNat_third_byte (small3 : s3 < 64) :
    (UInt8.ofNat (s2 % 4 * 64 + s3)).toNat = s2 % 4 * 64 + s3 :=
  UInt8.toNat_ofNat_of_lt' (show _ < 256 by omega)

private theorem first_char (small1 : s1 < 64) (digit : sextet c = some s0) :
    base64Char (UInt8.ofNat (s0 * 4 + s1 / 16) >>> 2) = c := by
  have byte := toNat_first_byte s1 (base64Alphabet_of_sextet digit).1 small1
  refine base64Char_of_bits ((toNat_high (by decide)).trans ?_) digit
  rw [byte]
  exact (by omega : (s0 * 4 + s1 / 16) / 4 = s0)

/-- The next byte's high bits are the low ones of the second sextet. -/
theorem second_char (next : UInt8) (small0 : s0 < 64) (joint : next.toNat / 16 = s1 % 16)
    (digit : sextet c = some s1) :
    base64Char (((UInt8.ofNat (s0 * 4 + s1 / 16) &&& 0x03) <<< 4) ||| (next >>> 4)) = c := by
  have small1 := (base64Alphabet_of_sextet digit).1
  refine base64Char_of_bits ((second_bits _ next).trans ?_) digit
  rw [toNat_first_byte s1 small0 small1]
  omega

private theorem third_char (next : UInt8) (joint : next.toNat / 64 = s2 % 4)
    (digit : sextet c = some s2) :
    base64Char (((UInt8.ofNat (s1 % 16 * 16 + s2 / 4) &&& 0x0f) <<< 2) ||| (next >>> 6)) = c := by
  have small2 := (base64Alphabet_of_sextet digit).1
  refine base64Char_of_bits ((third_bits _ next).trans ?_) digit
  rw [toNat_second_byte s1 s2 small2]
  omega

private theorem fourth_char (digit : sextet c = some s3) :
    base64Char (UInt8.ofNat (s2 % 4 * 64 + s3) &&& 0x3f) = c := by
  have small3 := (base64Alphabet_of_sextet digit).1
  refine base64Char_of_bits ((toNat_low (k := 6) rfl).trans ?_) digit
  rw [toNat_third_byte s2 small3]
  omega

end

private theorem base64Encode_of_base64Decode {text : Text} {data : Bytes}
    (decoded : base64Decode text = some data) : base64Encode data = text := by
  fun_induction base64Decode text generalizing data with
  | case1 =>
    cases decoded
    rfl
  | case2 c0 c1 c2 c3 rest ih =>
    simp only [Option.bind_eq_bind, Option.bind_eq_some_iff] at decoded
    obtain ⟨s0, digit0, s1, digit1, decoded⟩ := decoded
    have small0 := (base64Alphabet_of_sextet digit0).1
    have first := first_char s1 (base64Alphabet_of_sextet digit1).1 digit0
    by_cases padding : c2 = '=' ∧ c3 = '=' ∧ rest = []
    · rw [if_pos padding, Option.ite_none_right_eq_some] at decoded
      obtain ⟨zero, decoded⟩ := decoded
      cases decoded
      obtain ⟨rfl, rfl, rfl⟩ := padding
      -- no byte follows, and its bits are zero
      have second := second_char s1 0 small0 zero.symm digit1
      rw [show (0 : UInt8) >>> 4 = 0 from rfl, UInt8.or_zero] at second
      rw [base64Encode, first, second]
    · rw [if_neg padding, Option.bind_eq_some_iff] at decoded
      obtain ⟨s2, digit2, decoded⟩ := decoded
      have byte1 := toNat_second_byte s1 s2 (base64Alphabet_of_sextet digit2).1
      have small2 := (base64Alphabet_of_sextet digit2).1
      have second := second_char s1 _ small0 (by rw [byte1]; omega) digit1
      by_cases padding' : c3 = '=' ∧ rest = []
      · rw [if_pos padding', Option.ite_none_right_eq_some] at decoded
        obtain ⟨zero, decoded⟩ := decoded
        cases decoded
        obtain ⟨rfl, rfl⟩ := padding'
        have third := third_char s1 s2 0 zero.symm digit2
        rw [show (0 : UInt8) >>> 6 = 0 from rfl, UInt8.or_zero] at third
        rw [base64Encode, first, second, third]
      -- a full chunk, and the rest by induction
      · simp only [if_neg padding', Option.bind_eq_some_iff] at decoded
        obtain ⟨s3, digit3, behind, decodedBehind, decoded⟩ := decoded
        cases decoded
        have small3 := (base64Alphabet_of_sextet digit3).1
        have byte2 := toNat_third_byte s2 small3
        have third := third_char s1 s2 _ (by rw [byte2]; omega) digit2
        rw [base64Encode, first, second, third, fourth_char s2 digit3, ih decodedBehind]
  | case3 => cases decoded

/-- `base64_encode` is the encoding of the standard: the decoder takes it, and nothing else, back
to the bytes. Three bytes are four characters, the last chunk filled up with padding. -/
theorem base64Encode_standard (data : Bytes) :
    (∀ text, base64Decode text = some data ↔ text = base64Encode data) ∧
      (base64Encode data).length = 4 * ((data.length + 2) / 3) ∧
      ∃ digits, base64Encode data = digits ++ List.replicate ((3 - data.length % 3) % 3) '=' ∧
        ∀ c ∈ digits, (sextet c).isSome ∧ c ≠ '=' := by
  refine ⟨fun text => ⟨fun decoded => ?_, ?_⟩, length_base64Encode data, ?_⟩
  · exact (base64Encode_of_base64Decode decoded).symm
  · rintro rfl
    exact base64Decode_base64Encode data
  · obtain ⟨digits, padded, known⟩ := base64Encode_padded data
    refine ⟨digits, padded, fun c mem => ⟨known c mem, ?_⟩⟩
    obtain ⟨k, digit⟩ := Option.isSome_iff_exists.mp (known c mem)
    exact ne_padding_of_sextet digit

end MCGate.Config
