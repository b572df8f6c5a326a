import MCGate.Protocol.Encoding
import MCGate.Protocol.Handshake
import MCGate.Protocol.MinecraftProtocol

/-!
# Handshakes that MCGate writes

`encode_handshake` lays its fields out as the parser wants them, so `tryParse_complete_iff`
tells what becomes of them. The encoder knows no limits, though: a host of more than 255 bytes
is written all the same, and then the parser rejects it. The parser itself makes such hosts, out
of bytes that are not valid UTF-8.
-/
namespace MCGate

open Reader

/-! ### What is written is read back -/

variable {protocolVersion nextState : Int32} {host : Text} {port : UInt16}

/-- What `encode_handshake` puts behind the length. -/
def handshakePayload (protocolVersion : Int32) (host : Text) (port : UInt16) (nextState : Int32) :
    Bytes :=
  writeVarInt 0x00 ++ writeVarInt protocolVersion ++ writeString host ++ toBeBytes port ++
    writeVarInt nextState

theorem encodeHandshake_eq :
    encodeHandshake protocolVersion host port nextState =
      lengthPrefix (handshakePayload protocolVersion host port nextState) := rfl

private theorem handshakePayload_length_le :
    (handshakePayload protocolVersion host port nextState).length ≤ (asBytes host).length + 22 := by
  have id := (length_writeVarInt 0x00).2
  have version := (length_writeVarInt protocolVersion).2
  have size := (length_writeVarInt (Int32.ofNat (asBytes host).length)).2
  have next := (length_writeVarInt nextState).2
  have two : (toBeBytes port).length = 2 := rfl
  simp only [handshakePayload, writeString, List.length_append, two]
  omega

theorem ofNat_range {n : Nat} {bound : Int32} (small : n < 2 ^ 31)
    (below : (n : Int) ≤ bound.toInt) :
    0 ≤ Int32.ofNat n ∧ Int32.ofNat n ≤ bound := by
  rw [Int32.le_iff_toInt_le, Int32.le_iff_toInt_le, Int32.toInt_ofNat_of_lt small]
  exact ⟨Int.natCast_nonneg n, below⟩

/-- With a short host the payload stays within the limit of a handshake frame. -/
theorem payloadLength_range (short : (asBytes host).length ≤ 255) :
    0 ≤ Int32.ofNat (handshakePayload protocolVersion host port nextState).length ∧
      Int32.ofNat (handshakePayload protocolVersion host port nextState).length ≤
        MAX_HANDSHAKE_FRAME_BYTES := by
  have few := @handshakePayload_length_le protocolVersion nextState host port
  have max : MAX_HANDSHAKE_FRAME_BYTES.toInt = 512 := by decide
  exact ofNat_range (by omega) (by omega)

/-- The fields of an encoded handshake with a short host. -/
def encodedFields (protocolVersion nextState : Int32) (host : Text) (port : UInt16)
    (short : (asBytes host).length ≤ 255) : HandshakeFields where
  lengthEnc := writeVarInt
    (Int32.ofNat (handshakePayload protocolVersion host port nextState).length)
  idEnc := writeVarInt 0x00
  versionEnc := writeVarInt protocolVersion
  hostLengthEnc := writeVarInt (Int32.ofNat (asBytes host).length)
  host := asBytes host
  portHi := (port >>> 8).toUInt8
  portLo := port.toUInt8
  nextEnc := writeVarInt nextState
  length := Int32.ofNat (handshakePayload protocolVersion host port nextState).length
  version := protocolVersion
  hostLength := Int32.ofNat (asBytes host).length
  next := nextState
  length_reads := reads_writeVarInt _
  length_range := payloadLength_range short
  id_reads := reads_packetId
  version_reads := reads_writeVarInt _
  hostLength_reads := reads_writeVarInt _
  hostLength_range := by
    have max : (255 : Int32).toInt = 255 := by decide
    exact ofNat_range (by omega) (by omega)
  host_length := (Int32.toNatClampNeg_ofNat_of_lt (by omega)).symm
  next_reads := reads_writeVarInt _

private theorem bytes_encodedFields (short : (asBytes host).length ≤ 255) :
    (encodedFields protocolVersion nextState host port short).bytes =
      encodeHandshake protocolVersion host port nextState := by
  simp only [encodeHandshake_eq, lengthPrefix, HandshakeFields.bytes, HandshakeFields.body,
    encodedFields, handshakePayload, writeString, toBeBytes, List.append_assoc, List.cons_append,
    List.nil_append]

private theorem frameEnd_encodedFields (short : (asBytes host).length ≤ 255) :
    (encodedFields protocolVersion nextState host port short).frameEnd =
      (encodeHandshake protocolVersion host port nextState).length := by
  have few := @handshakePayload_length_le protocolVersion nextState host port
  rw [encodeHandshake_eq, lengthPrefix, List.length_append, HandshakeFields.frameEnd]
  congr 1
  exact Int32.toNatClampNeg_ofNat_of_lt (by omega)

/-- The parser takes nothing off a host without a NUL that does not end in a dot. -/
theorem handshakeHost_asBytes (noNul : '\x00' ∉ host) (noDot : host.getLast? ≠ some '.') :
    handshakeHost (asBytes host) = host := by
  have whole : host.takeWhile (· ≠ '\x00') = host := by
    rw [List.takeWhile_eq_self_iff]
    intro c member
    exact decide_eq_true fun nul => noNul (nul ▸ member)
  rw [handshakeHost, fromUtf8Lossy_asBytes, whole, List.rdropWhile_eq_self_iff]
  intro some dot
  rw [List.getLast?_eq_some_getLast some] at noDot
  exact noDot (congrArg Option.some (of_decide_eq_true dot))

theorem tryParse_encodeHandshake (short : (asBytes host).length ≤ 255) (rest : Bytes) :
    tryParse (encodeHandshake protocolVersion host port nextState ++ rest) =
      .complete ⟨protocolVersion, handshakeHost (asBytes host), port, nextState,
        encodeHandshake protocolVersion host port nextState⟩ := by
  have holds : HoldsHandshake (encodeHandshake protocolVersion host port nextState ++ rest)
      (encodedFields protocolVersion nextState host port short) := by
    constructor
    · rw [bytes_encodedFields]
      exact List.prefix_append _ _
    · rw [frameEnd_encodedFields, List.length_append]
      exact Nat.le_add_right _ _
  refine tryParse_complete_iff.mpr ⟨_, holds, ?_⟩
  rw [frameEnd_encodedFields, List.take_append_length, HandshakeFields.handshake]
  congr 1
  exact (fromBeBytes_toBeBytes port).symm

/-- Before its last byte an encoded handshake is incomplete. -/
theorem tryParse_take_encodeHandshake (short : (asBytes host).length ≤ 255) {n : Nat}
    (cut : n < (encodeHandshake protocolVersion host port nextState).length) :
    tryParse ((encodeHandshake protocolVersion host port nextState).take n) = .incomplete := by
  have few := @handshakePayload_length_le protocolVersion nextState host port
  have range := @payloadLength_range protocolVersion nextState host port short
  rw [encodeHandshake_eq, lengthPrefix] at cut ⊢
  generalize handshakePayload protocolVersion host port nextState = payload at *
  have reads := reads_writeVarInt (Int32.ofNat payload.length)
  -- the cut goes through the length, or leaves it and some of the payload
  by_cases inside : n < (writeVarInt (Int32.ofNat payload.length)).length
  · rw [List.take_append_of_le_length (Nat.le_of_lt inside)]
    exact tryParse_incomplete_iff.mpr (.inl (readVarInt_take reads inside))
  · obtain ⟨k, rfl⟩ := Nat.le.dest (Nat.le_of_not_lt inside)
    rw [List.length_append] at cut
    rw [List.take_append, List.take_of_length_le (by omega), Nat.add_sub_cancel_left,
      tryParse_of_length reads range, if_pos]
    rw [Int32.toNatClampNeg_ofNat_of_lt (by omega), List.length_take]
    omega

/-- An encoded handshake is read back whatever follows it, with the encoding as its raw frame,
and every part of it that ends earlier is waited on. -/
theorem handshake_roundTrip (protocolVersion nextState : Int32) (host : Text) (port : UInt16)
    (short : (asBytes host).length ≤ 255) (noNul : '\x00' ∉ host)
    (noDot : host.getLast? ≠ some '.') :
    (∀ rest, tryParse (encodeHandshake protocolVersion host port nextState ++ rest) =
      .complete ⟨protocolVersion, host, port, nextState,
        encodeHandshake protocolVersion host port nextState⟩) ∧
      ∀ front, front <+: encodeHandshake protocolVersion host port nextState →
        front ≠ encodeHandshake protocolVersion host port nextState →
        tryParse front = .incomplete := by
  constructor
  · intro rest
    have parsed := @tryParse_encodeHandshake protocolVersion nextState host port short rest
    rwa [handshakeHost_asBytes noNul noDot] at parsed
  · intro front isFront strict
    have cut : front.length < (encodeHandshake protocolVersion host port nextState).length := by
      apply Nat.lt_of_le_of_ne isFront.length_le
      intro same
      exact strict (isFront.eq_of_length same)
    rw [List.prefix_iff_eq_take.mp isFront]
    exact tryParse_take_encodeHandshake short cut

/-- A negative version and a host of two-byte characters. -/
theorem handshake_roundTrip_negative :
    (∀ rest, tryParse (encodeHandshake (-1) "spiel.münchen.de".toList 25565 2 ++ rest) =
      .complete ⟨-1, "spiel.münchen.de".toList, 25565, 2,
        encodeHandshake (-1) "spiel.münchen.de".toList 25565 2⟩) ∧
      ∀ front, front <+: encodeHandshake (-1) "spiel.münchen.de".toList 25565 2 →
        front ≠ encodeHandshake (-1) "spiel.münchen.de".toList 25565 2 →
        tryParse front = .incomplete :=
  handshake_roundTrip (-1) 2 "spiel.münchen.de".toList 25565 (by decide) (by decide) (by decide)

/-! ### The handshake of a status dial -/

/-- What the parser makes of host bytes is a host that it takes nothing more off. -/
theorem handshakeHost_idem (bytes : Bytes) :
    handshakeHost (asBytes (handshakeHost bytes)) = handshakeHost bytes := by
  apply handshakeHost_asBytes
  · intro nul
    have kept := List.mem_takeWhile_imp ((List.rdropWhile_prefix _ _).subset nul)
    exact absurd rfl (of_decide_eq_true kept)
  · intro dot
    rw [handshakeHost] at dot
    obtain ⟨some, last⟩ := List.mem_getLast?_eq_getLast dot
    exact List.rdropWhile_last_not _ _ some (decide_eq_true last.symm)

/-- Lossy decoding makes at most three bytes of one. -/
theorem length_handshakeHost_le (bytes : Bytes) :
    (asBytes (handshakeHost bytes)).length ≤ 3 * bytes.length := by
  apply Nat.le_trans _ (length_asBytes_fromUtf8Lossy_le bytes)
  obtain ⟨cut, same⟩ : handshakeHost bytes <+: fromUtf8Lossy bytes :=
    (List.rdropWhile_prefix _ _).trans (List.takeWhile_prefix _)
  rw [← same, asBytes_append, List.length_append]
  exact Nat.le_add_right _ _

theorem HandshakeFields.host_length_le (f : HandshakeFields) : f.host.length ≤ 255 := by
  have upper := Int32.le_iff_toInt_le.mp f.hostLength_range.2
  have max : (255 : Int32).toInt = 255 := by decide
  rw [f.host_length, Int32.toNatClampNeg]
  omega

/-- A handshake found in an encoded one has the length of the encoded host. -/
theorem hostLength_of_holds {f : HandshakeFields}
    (holds : HoldsHandshake (encodeHandshake protocolVersion host port nextState) f) :
    f.hostLength = Int32.ofNat (asBytes host).length := by
  obtain ⟨rest, same⟩ := holds.fields
  simp only [encodeHandshake_eq, lengthPrefix, handshakePayload, writeString,
    HandshakeFields.bytes, HandshakeFields.body, List.append_assoc] at same
  -- field by field: what was written and what is read start with the same VarInt
  obtain ⟨-, same, -⟩ := f.length_reads.unique readVarInt_local (reads_writeVarInt _) same
  obtain ⟨-, same, -⟩ := f.id_reads.unique readVarInt_local (reads_writeVarInt _) same
  obtain ⟨-, same, -⟩ := f.version_reads.unique readVarInt_local (reads_writeVarInt _) same
  exact (f.hostLength_reads.unique readVarInt_local (reads_writeVarInt _) same).2.2

/-- The handshake that is sent on a status dial for an accepted one is accepted again, with the
same version, host and port. -/
def Reencodes (buf : Bytes) : Prop :=
  ∀ h, tryParse buf = .complete h →
    ∃ h', tryParse (encodeHandshake h.protocolVersion h.host h.port 1) = .complete h' ∧
      h'.protocolVersion = h.protocolVersion ∧ h'.host = h.host ∧ h'.port = h.port

/-- This is so exactly when the decoded host of the buffer is at most 255 bytes long. -/
theorem reencodes_iff (buf : Bytes) :
    Reencodes buf ↔
      ∀ f, HoldsHandshake buf f → (asBytes (handshakeHost f.host)).length ≤ 255 := by
  constructor
  · intro reencodes f holds
    obtain ⟨h', accepted, -⟩ := reencodes _ (tryParse_complete_iff.mpr ⟨f, holds, rfl⟩)
    obtain ⟨g, found, -⟩ := tryParse_complete_iff.mp accepted
    have few := length_handshakeHost_le f.host
    have host := f.host_length_le
    -- at most 765 bytes, so the length is written as it is and can be compared
    have size : g.host.length = (asBytes (handshakeHost f.host)).length := by
      have small : (asBytes (handshakeHost f.host)).length < 2 ^ 31 := by omega
      rw [g.host_length, hostLength_of_holds found]
      exact Int32.toNatClampNeg_ofNat_of_lt small
    rw [← size]
    exact g.host_length_le
  · intro short h parsed
    obtain ⟨f, holds, rfl⟩ := tryParse_complete_iff.mp parsed
    have accepted := @tryParse_encodeHandshake f.version 1 (handshakeHost f.host)
      (fromBeBytes f.portHi f.portLo) (short f holds) []
    rw [List.append_nil, handshakeHost_idem] at accepted
    exact ⟨_, accepted, rfl, rfl, rfl⟩

/-- A host of 86 bytes that are not valid UTF-8. -/
def growingHost : Bytes :=
  [92, 0x00, 0x00, 86] ++ List.replicate 86 0xFF ++ [0x63, 0xDD, 0x01]

/-- It is accepted, and sent on it has 258 bytes and is rejected. -/
theorem growingHost_not_reencoded : ¬ Reencodes growingHost := by
  intro reencodes
  have parsed : tryParse growingHost = .complete
      ⟨0, List.replicate 86 Utf8.replacement, 25565, 1, growingHost⟩ := by decide +kernel
  have again : tryParse (encodeHandshake 0 (List.replicate 86 Utf8.replacement) 25565 1) =
      .malformed "bogus host length 258" := by decide +kernel
  obtain ⟨h', accepted, -⟩ := reencodes _ parsed
  rw [again] at accepted
  cases accepted

end MCGate
