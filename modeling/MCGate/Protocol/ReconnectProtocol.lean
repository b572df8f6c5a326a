import MCGate.Protocol.Compression
import MCGate.Std.Net

/-!
# Packets written into a running connection

Play-state packet ids differ from version to version, so a packet is only built for
the protocol versions whose table is known.
-/
namespace MCGate

/-- The ids that a kick or a transfer needs. -/
structure ReconnectPacketIds where
  playDisconnect : Int32
  playTransfer : Int32
  deriving DecidableEq, Repr

def CURRENT_BRACKET : ReconnectPacketIds where
  playDisconnect := 0x20
  playTransfer := 0x81

def bracketFor (protocolVersion : Int32) : Option ReconnectPacketIds :=
  if protocolVersion = 774 ∨ protocolVersion = 775 ∨ protocolVersion = 776 then
    some CURRENT_BRACKET
  else none

def reconnectSupported (protocolVersion : Int32) : Bool := (bracketFor protocolVersion).isSome

/-- `u16::to_be_bytes` -/
def toBeBytes (n : UInt16) : Bytes := [(n >>> 8).toUInt8, n.toUInt8]

def writeNbtString (value : Text) : Bytes :=
  toBeBytes (UInt16.ofNat (asBytes value).length) ++ asBytes value

namespace Nbt

def STRING : UInt8 := 8

end Nbt

def encodePlayDisconnect (zlib : Zlib) (ids : ReconnectPacketIds) (renderedReasonText : Text)
    (compressionThreshold : Int32) : Bytes :=
  frame zlib (writeVarInt ids.playDisconnect ++ Nbt.STRING :: writeNbtString renderedReasonText)
    compressionThreshold

def encodeTransfer (zlib : Zlib) (ids : ReconnectPacketIds) (host : Text) (port : UInt16)
    (compressionThreshold : Int32) : Bytes :=
  frame zlib (writeVarInt ids.playTransfer ++ writeString host ++ toBeBytes port)
    compressionThreshold

end MCGate
