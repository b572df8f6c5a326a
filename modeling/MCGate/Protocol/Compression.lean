import MCGate.Protocol.VarInt
import MCGate.Std.Io

/-!
# Compression framing

Once a threshold is negotiated a packet is framed as
`[packet length][data length][payload]`. The zlib codec itself is a library, so the
functions here take it as a parameter.
-/
namespace MCGate

/-- The zlib streams of `flate2`. -/
structure Zlib where
  /-- A `ZlibEncoder` at the default level, finished. -/
  deflate : Bytes → Bytes
  /-- A `ZlibDecoder` read to its end or to the given number of bytes. -/
  inflate : Bytes → Nat → Except IoError Bytes

inductive CompressionError where
  | dataLengthOutOfRange (n : Int32)
  | compressedPayloadOutOfRange (n : Int32)
  | deflate (e : IoError)
  | truncated
  deriving DecidableEq, Repr

def frame (zlib : Zlib) (payload : Bytes) (compressionThreshold : Int32) : Bytes :=
  if compressionThreshold < 0 then lengthPrefix payload
  else
    let uncompressedSize := Int32.ofNat payload.length
    if uncompressedSize < compressionThreshold then lengthPrefix (writeVarInt 0 ++ payload)
    else lengthPrefix (writeVarInt uncompressedSize ++ zlib.deflate payload)

/-- The packet id at the front of `bytes`, and the fields after it. -/
def readPacketId (bytes : Bytes) : Except CompressionError (Int32 × Bytes) :=
  match readVarInt bytes with
  | .error _ => .error .truncated
  | .ok (id, consumed) => .ok (id, bytes.drop consumed)

def readCompressedFrame (zlib : Zlib) (framePayload : Bytes) (compressionThreshold : Int32) :
    Except CompressionError (Int32 × Bytes) :=
  if compressionThreshold < 0 then readPacketId framePayload
  else match readVarInt framePayload with
    | .error _ => .error .truncated
    | .ok (dataLength, consumed) =>
      let rest := framePayload.drop consumed
      -- below the threshold: not compressed
      if dataLength = 0 then readPacketId rest
      else if dataLength < 0 ∨ dataLength > MAX_PACKET_BYTES then
        .error (.dataLengthOutOfRange dataLength)
      else if rest.length > MAX_PACKET_BYTES.toNatClampNeg then
        .error (.compressedPayloadOutOfRange (Int32.ofNat rest.length))
      else match zlib.inflate rest dataLength.toNatClampNeg with
        | .error e => .error (.deflate e)
        | .ok inflated => readPacketId inflated

end MCGate
