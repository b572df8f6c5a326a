import MCGate.Protocol.Encoding

/-!
# Framing and its inverse

A packet is framed in one of three ways, and the reader finds out again which one: from the
threshold, and above it from the data length, which is zero exactly when the packet was left
as it is.
-/
namespace MCGate

open Reader

/-- What `frame` puts behind the outer length. -/
def frameContents (zlib : Zlib) (payload : Bytes) (compressionThreshold : Int32) : Bytes :=
  if compressionThreshold < 0 then payload
  else if Int32.ofNat payload.length < compressionThreshold then writeVarInt 0 ++ payload
  else writeVarInt (Int32.ofNat payload.length) ++ zlib.deflate payload

private theorem frame_eq (zlib : Zlib) (payload : Bytes) (compressionThreshold : Int32) :
    frame zlib payload compressionThreshold =
      lengthPrefix (frameContents zlib payload compressionThreshold) := by
  unfold frame frameContents
  dsimp only
  split_ifs <;> rfl

private theorem readPacketId_writeVarInt (id : Int32) (fields : Bytes) :
    readPacketId (writeVarInt id ++ fields) = .ok (id, fields) := by
  simp only [readPacketId, readVarInt_writeVarInt, List.drop_append_length]

private theorem maxPacketBytes_toNat : MAX_PACKET_BYTES.toNatClampNeg = 2097151 := by decide

variable {zlib : Zlib} {payload : Bytes}

private theorem frameContents_length_le (compressionThreshold : Int32)
    (small : payload.length ≤ MAX_PACKET_BYTES.toNatClampNeg)
    (deflated : (zlib.deflate payload).length ≤ MAX_PACKET_BYTES.toNatClampNeg) :
    (frameContents zlib payload compressionThreshold).length ≤
      MAX_PACKET_BYTES.toNatClampNeg + 5 := by
  have zero := (length_writeVarInt 0).2
  have size := (length_writeVarInt (Int32.ofNat payload.length)).2
  unfold frameContents
  split_ifs <;> (try rw [List.length_append]) <;> omega

/-- Contents that are not too long are found again behind their length. -/
theorem readVarInt_lengthPrefix {contents : Bytes} (small : contents.length < 2 ^ 31) :
    ∃ length headerLen, readVarInt (lengthPrefix contents) = .ok (length, headerLen) ∧
      (lengthPrefix contents).drop headerLen = contents ∧ length.toInt = contents.length := by
  refine ⟨Int32.ofNat contents.length, _, readVarInt_writeVarInt _ contents, ?_, ?_⟩
  · rw [lengthPrefix, List.drop_append_length]
  · exact Int32.toInt_ofNat_of_lt small

/-- The data length of a packet that is not empty is none of those the reader turns down. -/
theorem dataLength_range (some : 1 ≤ payload.length)
    (small : payload.length ≤ MAX_PACKET_BYTES.toNatClampNeg) :
    Int32.ofNat payload.length ≠ 0 ∧
      ¬ (Int32.ofNat payload.length < 0 ∨ Int32.ofNat payload.length > MAX_PACKET_BYTES) := by
  rw [maxPacketBytes_toNat] at small
  have value := Int32.toInt_ofNat_of_lt (show payload.length < 2 ^ 31 by omega)
  have max : MAX_PACKET_BYTES.toInt = 2097151 := by decide
  have none : (0 : Int32).toInt = 0 := rfl
  constructor
  · intro zero
    rw [zero, none] at value
    omega
  · rw [gt_iff_lt, Int32.lt_iff_toInt_lt, Int32.lt_iff_toInt_lt, value, max, none]
    omega

/-- The reader finds the packet in each of the three framings. -/
theorem readCompressedFrame_frameContents {id : Int32} {fields : Bytes}
    (compressionThreshold : Int32)
    (inflates : zlib.inflate (zlib.deflate (writeVarInt id ++ fields))
      (writeVarInt id ++ fields).length = .ok (writeVarInt id ++ fields))
    (small : (writeVarInt id ++ fields).length ≤ MAX_PACKET_BYTES.toNatClampNeg)
    (deflated : (zlib.deflate (writeVarInt id ++ fields)).length ≤
      MAX_PACKET_BYTES.toNatClampNeg) :
    readCompressedFrame zlib (frameContents zlib (writeVarInt id ++ fields) compressionThreshold)
      compressionThreshold = .ok (id, fields) := by
  have whole := readPacketId_writeVarInt id fields
  have some : 1 ≤ (writeVarInt id ++ fields).length := by
    rw [List.length_append]
    exact Nat.le_add_right_of_le (length_writeVarInt id).1
  generalize writeVarInt id ++ fields = payload at *
  unfold frameContents readCompressedFrame
  by_cases uncompressed : compressionThreshold < 0
  · rw [if_pos uncompressed, if_pos uncompressed, whole]
  · rw [if_neg uncompressed, if_neg uncompressed]
    by_cases below : Int32.ofNat payload.length < compressionThreshold
    -- a data length of zero says that the packet follows as it is
    · rw [if_pos below, readVarInt_writeVarInt]
      simp only [if_true, List.drop_append_length, whole]
    · obtain ⟨nonzero, range⟩ := dataLength_range some small
      have size : (Int32.ofNat payload.length).toNatClampNeg = payload.length := by
        rw [maxPacketBytes_toNat] at small
        exact Int32.toNatClampNeg_ofNat_of_lt (by omega)
      rw [if_neg below, readVarInt_writeVarInt]
      simp only [if_neg nonzero, if_neg range, List.drop_append_length,
        if_neg (Nat.not_lt.mpr deflated), size, inflates, whole]

/-- What `frame` makes of a packet is read back by `read_compressed_frame` once its outer length
is taken off, and that length counts the bytes that follow it. -/
theorem frame_roundTrip (zlib : Zlib) (id : Int32) (fields : Bytes) (compressionThreshold : Int32)
    (inflates : zlib.inflate (zlib.deflate (writeVarInt id ++ fields))
      (writeVarInt id ++ fields).length = .ok (writeVarInt id ++ fields))
    (small : (writeVarInt id ++ fields).length ≤ MAX_PACKET_BYTES.toNatClampNeg)
    (deflated : (zlib.deflate (writeVarInt id ++ fields)).length ≤
      MAX_PACKET_BYTES.toNatClampNeg) :
    ∃ length headerLen,
      readVarInt (frame zlib (writeVarInt id ++ fields) compressionThreshold) =
        .ok (length, headerLen) ∧
      length.toInt =
        ((frame zlib (writeVarInt id ++ fields) compressionThreshold).drop headerLen).length ∧
      readCompressedFrame zlib
        ((frame zlib (writeVarInt id ++ fields) compressionThreshold).drop headerLen)
        compressionThreshold = .ok (id, fields) := by
  have few := frameContents_length_le compressionThreshold small deflated
  rw [maxPacketBytes_toNat] at few
  obtain ⟨length, headerLen, read, contents, size⟩ :=
    @readVarInt_lengthPrefix (frameContents zlib (writeVarInt id ++ fields) compressionThreshold)
      (by omega)
  rw [frame_eq]
  refine ⟨length, headerLen, read, ?_, ?_⟩
  · rw [contents, size]
  · rw [contents]
    exact readCompressedFrame_frameContents compressionThreshold inflates small deflated

/-- The stream that `zlib` makes of the packet id 2 and forty letters. -/
def deflatedLetters : Bytes :=
  [0x78, 0x9C, 0x63, 0x4A, 0x24, 0x12, 0x00, 0x00, 0x37, 0x3E, 0x0F, 0x2B]

/-- A packet at the threshold is compressed, and read back. -/
theorem frame_roundTrip_letters :
    ∃ length headerLen,
      readVarInt (frame ⟨fun _ => deflatedLetters, fun _ _ => .ok (2 :: List.replicate 40 0x61)⟩
        (writeVarInt 2 ++ List.replicate 40 0x61) 41) = .ok (length, headerLen) ∧
      length.toInt =
        ((frame ⟨fun _ => deflatedLetters, fun _ _ => .ok (2 :: List.replicate 40 0x61)⟩
          (writeVarInt 2 ++ List.replicate 40 0x61) 41).drop headerLen).length ∧
      readCompressedFrame
        ⟨fun _ => deflatedLetters, fun _ _ => .ok (2 :: List.replicate 40 0x61)⟩
        ((frame ⟨fun _ => deflatedLetters, fun _ _ => .ok (2 :: List.replicate 40 0x61)⟩
          (writeVarInt 2 ++ List.replicate 40 0x61) 41).drop headerLen) 41 =
        .ok (2, List.replicate 40 0x61) :=
  frame_roundTrip ⟨fun _ => deflatedLetters, fun _ _ => .ok (2 :: List.replicate 40 0x61)⟩ 2
    (List.replicate 40 0x61) 41 rfl (by decide) (by decide)

end MCGate
