import MCGate.Protocol.ReconnectProtocol

/-!
# Login packets

What MCGate writes to a backend before it forwards anything (`encodeHandshake`,
`encodeProxyProtocolHeader`) and what it reads of the client's Login Start.
-/
namespace MCGate

structure Uuid where
  bytes : Bytes
  size : bytes.length = 16
  deriving DecidableEq, Repr

def encodeProxyProtocolHeader (sourceAddr destAddr : SocketAddr) : Bytes :=
  let proto := if sourceAddr.ip.isIpv6 then "TCP6" else "TCP4"
  asBytes ("PROXY ".toList ++ proto.toList ++ ' ' :: displayIp sourceAddr.ip ++ ' ' ::
    displayIp destAddr.ip ++ ' ' :: Nat.toDigits 10 sourceAddr.port.toNat ++ ' ' ::
    Nat.toDigits 10 destAddr.port.toNat ++ "\r\n".toList)

example : encodeProxyProtocolHeader ⟨.v4 ⟨1, 2, 3, 4⟩, 111⟩ ⟨.v4 ⟨5, 6, 7, 8⟩, 222⟩ =
    literal "PROXY TCP4 1.2.3.4 5.6.7.8 111 222\r\n" := by decide

def encodeHandshake (protocolVersion : Int32) (host : Text) (port : UInt16) (nextState : Int32) :
    Bytes :=
  lengthPrefix (writeVarInt 0x00 ++ writeVarInt protocolVersion ++ writeString host ++
    toBeBytes port ++ writeVarInt nextState)

/-- The trailing UUID of a Login Start whose fields end at `pos`. -/
def readUuid (buf : Bytes) (pos : Nat) : Option Uuid :=
  if size : ((buf.drop pos).take 16).length = 16 then some ⟨(buf.drop pos).take 16, size⟩ else none

def parseLoginStart (buf : Bytes) : Option (Text × Option Uuid) := do
  let (length, payloadStart) ← (readVarInt buf).toOption
  if length < 0 then none
  if buf.length - payloadStart < length.toNatClampNeg then none
  let (packetId, consumed) ← (readVarInt (buf.drop payloadStart)).toOption
  if packetId ≠ 0x00 then none
  let pos := payloadStart + consumed
  let (name, consumed) ← (readString (buf.drop pos) 16).toOption
  let pos := pos + consumed
  let payloadEnd := payloadStart + length.toNatClampNeg
  -- `checked_sub`
  if payloadEnd < pos then none
  if payloadEnd - pos = 16 then
    let uuid ← readUuid buf pos
    return (name, some uuid)
  return (name, none)

/-- `uuid_to_bits` takes the sixteen bytes apart into two big-endian numbers that are written
big-endian again: the bytes themselves. -/
def encodeLoginStart (name : Text) (uuid : Option Uuid) : Bytes :=
  lengthPrefix (writeVarInt 0x00 ++ writeString name ++ (uuid.map Uuid.bytes).getD [])

example : parseLoginStart ([0x07, 0x00, 0x05] ++ literal "Steve") =
    some ("Steve".toList, none) := by decide

end MCGate
