import Mathlib.Data.List.Basic
import Mathlib.Data.List.DropRight

/-!
# Text

A Rust `String` is a sequence of Unicode scalar values, which is what a list of
`Char` is. `as_bytes` is its UTF-8 encoding and `String::from_utf8_lossy` decodes
bytes that need not be valid: each maximal prefix of a well-formed sequence that
is not continued becomes one U+FFFD.
-/
namespace MCGate

abbrev Bytes := List UInt8
abbrev Text := List Char

/-- What holds of the characters of a literal; `rfl` takes the literal apart without going
through its bytes. -/
theorem of_spelled {s : String} {l : Text} (holding : Text → Prop) (spelled : s = .ofList l)
    (holds : holding l) : holding s.toList := by
  rwa [spelled, String.toList_ofList]

theorem toList_eq_append {s front : String} {l f back : Text} (spelled : s = .ofList l)
    (spelled' : front = .ofList f) (same : l = f ++ back) : s.toList = front.toList ++ back := by
  rw [spelled, spelled', String.toList_ofList, String.toList_ofList, same]

/-- `str::as_bytes` -/
def asBytes (text : Text) : Bytes := text.flatMap String.utf8EncodeChar

/-- A string literal of the source as its bytes. -/
def literal (s : String) : Bytes := asBytes s.toList

/-- `str::eq_ignore_ascii_case` -/
def eqIgnoreAsciiCase (a b : Text) : Bool := a.map Char.toLower = b.map Char.toLower

/-- `char::is_whitespace` -/
def isWhitespace (c : Char) : Bool :=
  ('\t' ≤ c ∧ c ≤ '\r') ∨ c = ' ' ∨ c = '\u0085' ∨ c = '\u00a0' ∨ c = '\u1680' ∨
    ('\u2000' ≤ c ∧ c ≤ '\u200a') ∨ c = '\u2028' ∨ c = '\u2029' ∨ c = '\u202f' ∨
    c = '\u205f' ∨ c = '\u3000'

/-- `str::trim_end_matches` -/
def trimEndMatches (p : Char → Bool) (s : Text) : Text := s.rdropWhile p

/-- `str::trim` -/
def trim (s : Text) : Text := trimEndMatches isWhitespace (s.dropWhile isWhitespace)

namespace Utf8

def replacement : Char := Char.ofNat 0xFFFD

def continues (b : UInt8) : Bool := b &&& 0xC0 == 0x80

/-- The number of bytes the lead byte announces, 0 for a byte that leads nothing. -/
def width (b : UInt8) : Nat :=
  if b < 0x80 then 1
  else if 0xC2 ≤ b ∧ b ≤ 0xDF then 2
  else if 0xE0 ≤ b ∧ b ≤ 0xEF then 3
  else if 0xF0 ≤ b ∧ b ≤ 0xF4 then 4
  else 0

/-- The second byte's range is narrower after the lead bytes that could start an
overlong form, a surrogate or a value past U+10FFFF. -/
def follows (lead b : UInt8) : Bool :=
  if lead = 0xE0 then 0xA0 ≤ b ∧ b ≤ 0xBF
  else if lead = 0xED then 0x80 ≤ b ∧ b ≤ 0x9F
  else if lead = 0xF0 then 0x90 ≤ b ∧ b ≤ 0xBF
  else if lead = 0xF4 then 0x80 ≤ b ∧ b ≤ 0x8F
  else 0x80 ≤ b ∧ b ≤ 0xBF

/-- The scalar value spelled by the payload bits of a lead byte and its continuations. -/
def scalar (lead : Nat) (tail : List UInt8) : Char :=
  Char.ofNat (tail.foldl (fun acc b => acc * 64 + (b &&& 0x3F).toNat) lead)

end Utf8

open Utf8 in
/-- `String::from_utf8_lossy` -/
def fromUtf8Lossy : Bytes → Text
  | [] => []
  | b0 :: rest =>
    match width b0 with
    | 1 => scalar b0.toNat [] :: fromUtf8Lossy rest
    | 2 =>
      match rest with
      | b1 :: rest' =>
        if continues b1 then scalar (b0 &&& 0x1F).toNat [b1] :: fromUtf8Lossy rest'
        else replacement :: fromUtf8Lossy (b1 :: rest')
      | [] => [replacement]
    | 3 =>
      match rest with
      | b1 :: rest' =>
        if follows b0 b1 then
          match rest' with
          | b2 :: rest'' =>
            if continues b2 then scalar (b0 &&& 0x0F).toNat [b1, b2] :: fromUtf8Lossy rest''
            else replacement :: fromUtf8Lossy (b2 :: rest'')
          | [] => [replacement]
        else replacement :: fromUtf8Lossy (b1 :: rest')
      | [] => [replacement]
    | 4 =>
      match rest with
      | b1 :: rest' =>
        if follows b0 b1 then
          match rest' with
          | b2 :: rest'' =>
            if continues b2 then
              match rest'' with
              | b3 :: rest''' =>
                if continues b3 then
                  scalar (b0 &&& 0x07).toNat [b1, b2, b3] :: fromUtf8Lossy rest'''
                else replacement :: fromUtf8Lossy (b3 :: rest''')
              | [] => [replacement]
            else replacement :: fromUtf8Lossy (b2 :: rest'')
          | [] => [replacement]
        else replacement :: fromUtf8Lossy (b1 :: rest')
      | [] => [replacement]
    | _ => replacement :: fromUtf8Lossy rest

example : fromUtf8Lossy [0x68, 0xC3, 0xA9, 0xE2, 0x82, 0xAC] = ['h', 'é', '€'] := by decide

-- A truncated three-byte sequence is one replacement, a stray continuation another.
example : fromUtf8Lossy [0xE2, 0x82, 0x41, 0x80] =
    [Utf8.replacement, 'A', Utf8.replacement] := by decide

/-! ### Decoding never adds characters -/

theorem fromUtf8Lossy_length_le (bytes : Bytes) :
    (fromUtf8Lossy bytes).length ≤ bytes.length := by
  fun_induction fromUtf8Lossy bytes <;> simp_all <;> omega

theorem scalar_ascii {b : UInt8} (ascii : Utf8.width b = 1) :
    UInt8.ofNat (Utf8.scalar b.toNat []).toNat = b := by
  have small : b.toNat < 128 := by
    -- any other lead byte announces two bytes or more, or none at all
    by_contra large
    have high : ¬ b < 0x80 := by rw [UInt8.lt_iff_toNat_lt]; simpa using large
    simp only [Utf8.width, high, if_false] at ascii
    split at ascii <;> (try split at ascii) <;> (try split at ascii) <;> omega
  have valid : b.toNat.isValidChar := Or.inl (by omega)
  have code : (Char.ofNat b.toNat).toNat = b.toNat := by
    rw [Char.ofNat, dif_pos valid]
    rfl
  simp [Utf8.scalar, code]

/-- As many characters as bytes, none of them a replacement: every byte was ASCII,
and the text gives the bytes back. -/
theorem fromUtf8Lossy_ascii {bytes : Bytes}
    (same : (fromUtf8Lossy bytes).length = bytes.length)
    (valid : Utf8.replacement ∉ fromUtf8Lossy bytes) :
    (fromUtf8Lossy bytes).map (fun c => UInt8.ofNat c.toNat) = bytes := by
  fun_induction fromUtf8Lossy bytes
  case case1 => rfl
  case case2 b0 rest ascii ih =>
    simp only [List.mem_cons, not_or, List.length_cons, Nat.add_right_cancel_iff] at valid same
    rw [List.map_cons, scalar_ascii ascii, ih same valid.2]
  -- otherwise several bytes made one character, and the text is too short, or a
  -- replacement stands first
  all_goals grind [fromUtf8Lossy_length_le]

end MCGate
