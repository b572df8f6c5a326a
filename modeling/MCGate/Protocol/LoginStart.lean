import MCGate.Protocol.Encoding
import MCGate.Protocol.MinecraftProtocol

/-!
# The Login Start packet

`parse_login_start` reads its fields out of the whole buffer and only then compares where they
end with the end of the declared frame. What it accepts is a frame laid out field by field
(`LoginStartFields`), and since a frame is found again from its own length, nothing behind it
has a say.
-/
namespace MCGate

open Reader

/-! ### The accepted layout -/

/-- The UUID that trailing bytes stand for: sixteen of them, or none. -/
def trailingUuid (bytes : Bytes) : Option Uuid :=
  if size : bytes.length = 16 then some ⟨bytes, size⟩ else none

private theorem readUuid_eq {buf : Bytes} {pos n : Nat} (inside : pos + n ≤ buf.length)
    (name : Text) :
    (if n = 16 then (readUuid buf pos).bind fun uuid => some (name, some uuid)
      else some (name, none)) = some (name, trailingUuid ((buf.drop pos).take n)) := by
  have size : ((buf.drop pos).take n).length = n := by
    rw [List.length_take, List.length_drop]
    omega
  by_cases sixteen : n = 16
  · subst sixteen
    rw [if_pos rfl, readUuid, dif_pos size, trailingUuid, dif_pos size]
    rfl
  · rw [if_neg sixteen, trailingUuid, dif_neg (by rwa [size])]

private theorem toOption_eq_some {ε α : Type} {x : Except ε α} {a : α} :
    x.toOption = some a ↔ x = .ok a := by
  cases x <;> simp [Except.toOption]

/-- What `parse_login_start` finds, field by field. -/
theorem parseLoginStart_eq_some {buf : Bytes} {name : Text} {uuid : Option Uuid} :
    parseLoginStart buf = some (name, uuid) ↔
      ∃ length start idLength nameLength, readVarInt buf = .ok (length, start) ∧ 0 ≤ length ∧
        start + length.toNatClampNeg ≤ buf.length ∧
        readVarInt (buf.drop start) = .ok (0, idLength) ∧
        readString (buf.drop (start + idLength)) 16 = .ok (name, nameLength) ∧
        idLength + nameLength ≤ length.toNatClampNeg ∧
        uuid = trailingUuid ((buf.drop (start + idLength + nameLength)).take
          (length.toNatClampNeg - (idLength + nameLength))) := by
  simp only [parseLoginStart, Option.bind_eq_bind, Option.bind_none, Option.bind_eq_some_iff,
    Option.ite_none_left_eq_some, toOption_eq_some, not_not, Int32.not_lt, Nat.not_lt]
  constructor
  · rintro ⟨⟨length, start⟩, size, positive, complete, ⟨_, idLength⟩, id, rfl,
      ⟨found, nameLength⟩, named, inside, ended⟩
    -- the length counts from behind itself, the offsets from the front of the buffer
    have within := readVarInt_local.within size
    have rest : start + length.toNatClampNeg - (start + idLength + nameLength) =
        length.toNatClampNeg - (idLength + nameLength) := by omega
    simp only at complete inside
    rw [rest] at ended
    change (if _ then Option.bind _ fun uuid => some (found, some uuid) else some (found, none)) = _
      at ended
    rw [readUuid_eq (by omega), Option.some.injEq, Prod.mk.injEq] at ended
    obtain ⟨rfl, rfl⟩ := ended
    exact ⟨length, start, idLength, nameLength, size, positive, by omega, id, named, by omega, rfl⟩
  · rintro ⟨length, start, idLength, nameLength, size, positive, complete, id, named, inside, rfl⟩
    have rest : start + length.toNatClampNeg - (start + idLength + nameLength) =
        length.toNatClampNeg - (idLength + nameLength) := by omega
    refine ⟨(length, start), size, positive, by simp only; omega, (0, idLength), id, rfl,
      (name, nameLength), named, by simp only; omega, ?_⟩
    simp only [rest]
    exact readUuid_eq (by omega) name

/-- A Login Start on the wire: a length, packet id 0, a name, and whatever the length leaves. -/
structure LoginStartFields where
  lengthEnc : Bytes
  idEnc : Bytes
  nameEnc : Bytes
  trailing : Bytes
  length : Int32
  name : Text
  length_reads : Reads readVarInt lengthEnc length
  positive : 0 ≤ length
  id_reads : Reads readVarInt idEnc 0
  name_reads : Reads (fun buf => readString buf 16) nameEnc name
  size : idEnc.length + nameEnc.length + trailing.length = length.toNatClampNeg

def LoginStartFields.bytes (f : LoginStartFields) : Bytes :=
  f.lengthEnc ++ (f.idEnc ++ (f.nameEnc ++ f.trailing))

private theorem LoginStartFields.length_bytes (f : LoginStartFields) :
    f.bytes.length = f.lengthEnc.length + f.length.toNatClampNeg := by
  rw [← f.size, bytes]
  simp only [List.length_append]
  omega

/-- `parse_login_start` accepts a buffer exactly when a Login Start stands at its front. -/
theorem parseLoginStart_iff {buf : Bytes} {name : Text} {uuid : Option Uuid} :
    parseLoginStart buf = some (name, uuid) ↔
      ∃ f : LoginStartFields, f.bytes <+: buf ∧ f.name = name ∧ trailingUuid f.trailing = uuid := by
  rw [parseLoginStart_eq_some]
  constructor
  · rintro ⟨length, start, idLength, nameLength, size, positive, complete, id, named, inside, rfl⟩
    -- cut the buffer behind each field that was read
    obtain ⟨lengthEnc, rest, rfl, rfl, lengthReads⟩ := readVarInt_local.split size
    rw [List.drop_append_length] at id
    obtain ⟨idEnc, rest, rfl, rfl, idReads⟩ := readVarInt_local.split id
    rw [← List.drop_drop, List.drop_append_length, List.drop_append_length] at named
    obtain ⟨nameEnc, rest, rfl, rfl, nameReads⟩ := (readString_local 16).split named
    have after : (lengthEnc ++ (idEnc ++ (nameEnc ++ rest))).drop
        (lengthEnc.length + idEnc.length + nameEnc.length) = rest := by
      rw [← List.drop_drop, ← List.drop_drop, List.drop_append_length, List.drop_append_length,
        List.drop_append_length]
    rw [after]
    simp only [List.length_append] at complete
    refine ⟨{
      lengthEnc, idEnc, nameEnc, length, name
      trailing := rest.take (length.toNatClampNeg - (idEnc.length + nameEnc.length))
      length_reads := lengthReads
      positive
      id_reads := idReads
      name_reads := nameReads
      size := by rw [List.length_take]; omega }, ?_, rfl, rfl⟩
    simp only [LoginStartFields.bytes, List.prefix_append_right_inj]
    exact List.take_prefix _ _
  · rintro ⟨f, ⟨rest, rfl⟩, rfl, rfl⟩
    -- and the other way round: each reader stops where its field ends
    have fields : f.bytes ++ rest =
        f.lengthEnc ++ (f.idEnc ++ (f.nameEnc ++ (f.trailing ++ rest))) := by
      simp only [LoginStartFields.bytes, List.append_assoc]
    have size := f.size
    have at_name : (f.bytes ++ rest).drop (f.lengthEnc.length + f.idEnc.length) =
        f.nameEnc ++ (f.trailing ++ rest) := by
      rw [fields, ← List.drop_drop, List.drop_append_length, List.drop_append_length]
    have at_trailing : (f.bytes ++ rest).drop
        (f.lengthEnc.length + f.idEnc.length + f.nameEnc.length) = f.trailing ++ rest := by
      rw [← List.drop_drop, at_name, List.drop_append_length]
    have left : f.length.toNatClampNeg - (f.idEnc.length + f.nameEnc.length) =
        f.trailing.length := by omega
    refine ⟨f.length, f.lengthEnc.length, f.idEnc.length, f.nameEnc.length, ?_, f.positive, ?_, ?_,
      ?_, by omega, ?_⟩
    · rw [fields]
      exact f.length_reads.append readVarInt_local _
    · rw [List.length_append, f.length_bytes]
      exact Nat.le_add_right _ _
    · rw [fields, List.drop_append_length]
      exact f.id_reads.append readVarInt_local _
    · rw [at_name]
      exact f.name_reads.append (readString_local 16) _
    · rw [at_trailing, left, List.take_append_length]

theorem LoginStartFields.isFrame (f : LoginStartFields) : IsFrame f.bytes :=
  ⟨f.length, f.lengthEnc.length, f.length_reads.append readVarInt_local _, f.positive,
    f.length_bytes⟩

/-- A Login Start at the front of a frame is the frame. -/
theorem LoginStartFields.bytes_eq {f : LoginStartFields} {frame rest : Bytes}
    (whole : IsFrame frame) (front : f.bytes <+: frame ++ rest) : f.bytes = frame := by
  obtain ⟨tail, same⟩ := front
  exact prefixFree_isFrame f.bytes frame tail rest f.isFrame whole same

/-- What follows a whole frame has no say in how it is parsed. -/
theorem parseLoginStart_append {frame : Bytes} (whole : IsFrame frame) (rest : Bytes) :
    parseLoginStart (frame ++ rest) = parseLoginStart frame := by
  apply Option.ext
  rintro ⟨name, uuid⟩
  rw [parseLoginStart_iff, parseLoginStart_iff]
  constructor
  · rintro ⟨f, front, found⟩
    have same := LoginStartFields.bytes_eq whole front
    exact ⟨f, ⟨[], by rw [List.append_nil, same]⟩, found⟩
  · rintro ⟨f, front, found⟩
    exact ⟨f, front.trans (List.prefix_append frame rest), found⟩

/-! ### What is written is read back -/

/-- What `encode_login_start` puts behind the length. -/
def loginStartPayload (name : Text) (uuid : Option Uuid) : Bytes :=
  writeVarInt 0x00 ++ writeString name ++ (uuid.map Uuid.bytes).getD []

private theorem trailingUuid_bytes (uuid : Option Uuid) :
    trailingUuid ((uuid.map Uuid.bytes).getD []) = uuid := by
  cases uuid with
  | none => rfl
  | some uuid =>
    rw [Option.map_some, Option.getD_some, trailingUuid, dif_pos uuid.size]

variable {name : Text} {uuid : Option Uuid}

private theorem loginStartPayload_length_le (short : (asBytes name).length ≤ 64) :
    (loginStartPayload name uuid).length ≤ 90 := by
  have id := (length_writeVarInt 0x00).2
  have size := (length_writeVarInt (Int32.ofNat (asBytes name).length)).2
  have trailing : ((uuid.map Uuid.bytes).getD []).length ≤ 16 := by
    cases uuid with
    | none => exact Nat.zero_le 16
    | some uuid => exact Nat.le_of_eq uuid.size
  simp only [loginStartPayload, writeString, List.length_append]
  omega

/-- The fields of an encoded Login Start with a name that is short enough. -/
def encodedLoginStart (name : Text) (uuid : Option Uuid) (short : (asBytes name).length ≤ 64) :
    LoginStartFields where
  lengthEnc := writeVarInt (Int32.ofNat (loginStartPayload name uuid).length)
  idEnc := writeVarInt 0x00
  nameEnc := writeString name
  trailing := (uuid.map Uuid.bytes).getD []
  length := Int32.ofNat (loginStartPayload name uuid).length
  name
  length_reads := reads_writeVarInt _
  positive := by
    have few := @loginStartPayload_length_le name uuid short
    rw [Int32.le_iff_toInt_le, Int32.toInt_ofNat_of_lt (by omega)]
    exact Int.natCast_nonneg _
  id_reads := reads_packetId
  name_reads := by
    -- sixteen characters may take 64 bytes, and no more is asked of the name
    have limit : saturatingMul4 16 = 64 := by decide
    exact reads_writeString (by omega)
  size := by
    have few := @loginStartPayload_length_le name uuid short
    rw [Int32.toNatClampNeg_ofNat_of_lt (by omega), loginStartPayload, List.length_append,
      List.length_append]

private theorem bytes_encodedLoginStart (short : (asBytes name).length ≤ 64) :
    (encodedLoginStart name uuid short).bytes = encodeLoginStart name uuid := by
  simp only [LoginStartFields.bytes, encodedLoginStart, encodeLoginStart, lengthPrefix,
    loginStartPayload, List.append_assoc]

/-- Cut before its end, a Login Start is not accepted. -/
theorem parseLoginStart_cut (f : LoginStartFields) {front : Bytes} (isFront : front <+: f.bytes)
    (strict : front ≠ f.bytes) : parseLoginStart front = none := by
  apply Option.eq_none_iff_forall_ne_some.mpr
  rintro ⟨name, uuid⟩ parsed
  obtain ⟨g, found, -⟩ := parseLoginStart_iff.mp parsed
  have inside := found.trans (isFront.trans (List.prefix_append f.bytes []))
  -- frames are prefix-free, so the one found in the cut would be all of it
  rw [LoginStartFields.bytes_eq f.isFrame inside] at found
  exact strict (isFront.eq_of_length_le found.length_le)

/-- An encoded Login Start is read back whatever follows it, no part of it that ends earlier is
accepted, and no frame is read past its end. -/
theorem loginStart_roundTrip (name : Text) (uuid : Option Uuid)
    (short : (asBytes name).length ≤ 64) :
    (∀ rest, parseLoginStart (encodeLoginStart name uuid ++ rest) = some (name, uuid)) ∧
      (∀ front, front <+: encodeLoginStart name uuid → front ≠ encodeLoginStart name uuid →
        parseLoginStart front = none) ∧
      ∀ frame rest, IsFrame frame → parseLoginStart (frame ++ rest) = parseLoginStart frame := by
  rw [← bytes_encodedLoginStart short]
  refine ⟨fun rest => ?_, fun front => parseLoginStart_cut _, fun frame rest whole =>
    parseLoginStart_append whole rest⟩
  exact parseLoginStart_iff.mpr
    ⟨_, List.prefix_append _ rest, rfl, trailingUuid_bytes uuid⟩

/-- A name of sixteen bytes without a UUID: the sixteen are not taken for one. -/
theorem loginStart_roundTrip_sixteen :
    (∀ rest, parseLoginStart (encodeLoginStart "sixteen_letters_".toList none ++ rest) =
      some ("sixteen_letters_".toList, none)) ∧
      (∀ front, front <+: encodeLoginStart "sixteen_letters_".toList none →
        front ≠ encodeLoginStart "sixteen_letters_".toList none →
        parseLoginStart front = none) ∧
      ∀ frame rest, IsFrame frame → parseLoginStart (frame ++ rest) = parseLoginStart frame :=
  loginStart_roundTrip "sixteen_letters_".toList none (by decide)

end MCGate
