import VirtualPad.Bytes.Word
import VirtualPad.Datagram.Basic
import VirtualPad.Text.Utf8

/-!
# Writing datagrams

Control datagrams are filled with zeros to their fixed size. A name that is too long for one is
cut after its last byte that fits, which may fall inside a character.
-/
namespace VirtualPad

def Datagram.padded (bytes : List UInt8) : List UInt8 :=
  bytes ++ List.replicate (controlSize - bytes.length) 0

def DiscoveryRequest.encode (processId : UInt32) : List UInt8 :=
  Datagram.padded (Datagram.offerCode :: 0 :: 1 :: Word.bytes32 processId)

namespace Datagram

def encodeRelease : List UInt8 :=
  padded [releaseCode]

def encodeOffer : Option Controller → List UInt8
  | none => padded [offerCode]
  | some c =>
    let name := (Utf8.encode c.name).take maxNameSize
    padded (offerCode :: Word.bytes32 c.id.toUInt32 ++ c.mapper.toWire.toUInt8 ::
      Word.bytes32 (.ofNat name.length) ++ name)

def encodeState (ack : UInt8) (id : Int32) (s : Sample) : List UInt8 :=
  stateCode :: ack :: Word.bytes32 id.toUInt32 ++ Word.bytes16 (.ofBitVec s.buttons) ++
    s.dpad.toUInt8 :: Word.bytes16 s.leftX.toUInt16 ++ Word.bytes16 s.leftY.toUInt16 ++
    Word.bytes16 s.rightX.toUInt16 ++ Word.bytes16 s.rightY.toUInt16

end Datagram
end VirtualPad
