import MCGate.Protocol.Encoding
import MCGate.Protocol.LegacyText

/-!
# The text of a kick

A Play Disconnect carries its reason as an NBT string, whose length has sixteen bits. The text
is as long as its markup makes it, and `write_nbt_string` keeps the low sixteen bits of the
length without a look at the others.
-/
namespace MCGate

open Reader

namespace Nbt

/-- A string as a client reads it: the tag, the length, as many bytes, and what follows them. -/
def readString : Bytes → Option (Bytes × Bytes)
  | tag :: hi :: lo :: rest =>
    let length := (fromBeBytes hi lo).toNat
    if tag = STRING ∧ length ≤ rest.length then some (rest.take length, rest.drop length) else none
  | _ => none

/-- The length that is written is the number of bytes up to whole multiples of 65,536. -/
theorem readString_writeNbtString (value : Text) :
    readString (STRING :: writeNbtString value) =
      some ((asBytes value).take ((asBytes value).length % 65536),
        (asBytes value).drop ((asBytes value).length % 65536)) := by
  have length : (fromBeBytes (UInt16.ofNat (asBytes value).length >>> 8).toUInt8
      (UInt16.ofNat (asBytes value).length).toUInt8).toNat = (asBytes value).length % 65536 := by
    rw [fromBeBytes_toBeBytes, UInt16.toNat_ofNat']
  simp only [writeNbtString, toBeBytes, List.cons_append, List.nil_append, readString, length]
  exact if_pos ⟨trivial, Nat.mod_le _ _⟩

/-- The whole text is found, and nothing behind it, exactly when it is shorter than that. -/
theorem readString_eq_iff (value : Text) :
    readString (STRING :: writeNbtString value) = some (asBytes value, []) ↔
      (asBytes value).length < 65536 := by
  rw [readString_writeNbtString]
  constructor
  · intro same
    rw [Option.some.injEq, Prod.mk.injEq, List.drop_eq_nil_iff] at same
    exact Nat.lt_of_le_of_lt same.2 (Nat.mod_lt _ (by decide))
  · intro small
    rw [Nat.mod_eq_of_lt small, List.take_length, List.drop_length]

end Nbt

/-- A packet that is one frame, with the id and then the text as an NBT string, and ends there. -/
def CarriesText (packet : Bytes) (id : Int32) (text : Text) : Prop :=
  ∃ length headerLen idLen, readVarInt packet = .ok (length, headerLen) ∧
    length.toInt = (packet.drop headerLen).length ∧
    readVarInt (packet.drop headerLen) = .ok (id, idLen) ∧
    Nbt.readString (packet.drop (headerLen + idLen)) = some (asBytes text, [])

private theorem carriesText_iff (zlib : Zlib) (ids : ReconnectPacketIds) (text : Text) :
    CarriesText (encodePlayDisconnect zlib ids text (-1)) ids.playDisconnect text ↔
      (asBytes text).length < 65536 := by
  have packet : encodePlayDisconnect zlib ids text (-1) =
      lengthPrefix (writeVarInt ids.playDisconnect ++ Nbt.STRING :: writeNbtString text) := rfl
  have size : (Nbt.STRING :: writeNbtString text).length = (asBytes text).length + 3 := by
    simp only [writeNbtString, toBeBytes, List.length_cons, List.length_append, List.length_nil]
    omega
  have id := (length_writeVarInt ids.playDisconnect).2
  rw [packet, lengthPrefix, ← Nbt.readString_eq_iff, CarriesText]
  generalize whole : writeVarInt ids.playDisconnect ++ Nbt.STRING :: writeNbtString text = contents
  have at_string (n : Nat) : (writeVarInt (Int32.ofNat contents.length) ++ contents).drop
      ((writeVarInt (Int32.ofNat contents.length)).length + n) = contents.drop n := by
    rw [← List.drop_drop, List.drop_append_length]
  have readId : readVarInt contents =
      .ok (ids.playDisconnect, (writeVarInt ids.playDisconnect).length) := by
    rw [← whole, readVarInt_writeVarInt]
  constructor
  · rintro ⟨length, headerLen, idLen, read, -, readId', found⟩
    rw [readVarInt_writeVarInt, Except.ok.injEq, Prod.mk.injEq] at read
    obtain ⟨rfl, rfl⟩ := read
    rw [List.drop_append_length, readId, Except.ok.injEq, Prod.mk.injEq] at readId'
    obtain ⟨-, rfl⟩ := readId'
    rwa [at_string, ← whole, List.drop_append_length] at found
  · intro found
    have small := (Nbt.readString_eq_iff text).mp found
    refine ⟨_, _, (writeVarInt ids.playDisconnect).length, readVarInt_writeVarInt _ _, ?_, ?_, ?_⟩
    · rw [List.drop_append_length, Int32.toInt_ofNat_of_lt]
      rw [← whole, List.length_append]
      omega
    · rw [List.drop_append_length]
      exact readId
    · rw [at_string, ← whole, List.drop_append_length]
      exact found

namespace TextFormat

/-! ### A text without markup -/

private theorem legacyCodesToTags_plain {text : Text} (plain : '&' ∉ text) :
    legacyCodesToTags text = text := by
  fun_induction legacyCodesToTags text
  case case1 => rfl
  case case2 => exact absurd List.mem_cons_self plain
  case case3 => exact absurd List.mem_cons_self plain
  case case4 c rest _ ih =>
    rw [ih (mt (List.mem_cons_of_mem c) plain)]

private theorem parseNodesFuel_plain {text : Text} (noEscape : '\\' ∉ text) (noTag : '<' ∉ text)
    (nested : Bool) (gathered : Text) :
    parseNodesFuel text.length nested gathered text = (pushText (gathered ++ text) [], []) := by
  induction text generalizing gathered with
  | nil => rw [parseNodesFuel, List.append_nil]
  | cons c rest ih =>
    rw [List.mem_cons, not_or] at noEscape noTag
    rw [List.length_cons, parseNodesFuel]
    · rw [ih noEscape.2 noTag.2, List.append_assoc]
      rfl
    · rintro _ _ rfl
      exact absurd rfl noEscape.1
    · rintro rfl
      exact absurd rfl noTag.1

/-- Without markup a text is its own rendering. -/
theorem toLegacyText_plain {toLowercase : Text → Text} {text : Text} (noCode : '&' ∉ text)
    (noEscape : '\\' ∉ text) (noTag : '<' ∉ text) : toLegacyText toLowercase text = some text := by
  rw [toLegacyText, parseRuns, legacyCodesToTags_plain noCode, parseNodes,
    parseNodesFuel_plain noEscape noTag, List.nil_append]
  cases text with
  | nil => rfl
  | cons c rest =>
    simp [pushText, flatten, flattenNode, writeRuns, writeLegacyStyle, writeDecoration]

end TextFormat

/-! ### Kicks -/

/-- Whatever `to_legacy_text` makes of the message is what the packet of the kick carries. -/
def KickCarries (toLowercase : Text → Text) (zlib : Zlib) (ids : ReconnectPacketIds)
    (message : Text) : Prop :=
  ∀ rendered, TextFormat.toLegacyText toLowercase message = some rendered →
    CarriesText (encodePlayDisconnect zlib ids rendered (-1)) ids.playDisconnect rendered

/-- It does exactly when that takes fewer than 65,536 bytes. -/
theorem kickCarries_iff (toLowercase : Text → Text) (zlib : Zlib) (ids : ReconnectPacketIds)
    (message : Text) :
    KickCarries toLowercase zlib ids message ↔
      ∀ rendered, TextFormat.toLegacyText toLowercase message = some rendered →
        (asBytes rendered).length < 65536 := by
  constructor
  · intro carries rendered text
    exact (carriesText_iff zlib ids rendered).mp (carries rendered text)
  · intro short rendered text
    exact (carriesText_iff zlib ids rendered).mpr (short rendered text)

private theorem length_asBytes_letters (n : Nat) : (asBytes (List.replicate n 'a')).length = n := by
  induction n with
  | zero => rfl
  | succ n ih =>
    have one : 'a'.utf8Size = 1 := by decide
    rw [List.replicate_succ, length_asBytes_cons, ih, one, Nat.add_comm]

/-- The length of 65,536 letters is written as zero. -/
theorem kickCarries_overlong :
    ¬ KickCarries (List.map Char.toLower) ⟨id, fun bytes _ => .ok bytes⟩ CURRENT_BRACKET
      (List.replicate 65536 'a') := by
  intro carries
  have plain (c : Char) (other : c ≠ 'a') : c ∉ List.replicate 65536 'a' := by
    intro member
    exact other (List.eq_of_mem_replicate member)
  have small := (carriesText_iff _ _ _).mp (carries _ (TextFormat.toLegacyText_plain
    (plain '&' (by decide)) (plain '\\' (by decide)) (plain '<' (by decide))))
  rw [length_asBytes_letters] at small
  exact Nat.lt_irrefl _ small

end MCGate
