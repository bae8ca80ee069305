import VirtualPad.Bytes.Word
import VirtualPad.Datagram.Basic
import VirtualPad.Text.Utf8

/-!
# Reading datagrams

    offer     8  id:4  mapper:1  name length:4  name
    state     9  ack:1  id:4  buttons:2  dpad:1  left x, left y, right x, right y: 2 each
    release  10
    request   8  want notify:1  notify enable:1  process id:4

An offer whose id is not positive offers nothing and needs no more than the id. Bytes after the
last field are not looked at.
-/
namespace VirtualPad.Datagram

def decodeName (length : Int32) (bytes : List UInt8) : Except DecodeError String :=
  if 0 ≤ length.toInt ∧ length.toInt ≤ bytes.length then
    .ok (Utf8.decodeLossy (bytes.take length.toInt.toNat))
  else .error (.nameOutOfBounds length bytes.length)

def decodeOffer : List UInt8 → Except DecodeError Datagram
  | i0 :: i1 :: i2 :: i3 :: body =>
    let id := (Word.ofBytes32 i0 i1 i2 i3).toInt32
    if id ≤ 0 then .ok (.offer none)
    else
      match body with
      | mapper :: n0 :: n1 :: n2 :: n3 :: bytes => do
        let name ← decodeName (Word.ofBytes32 n0 n1 n2 n3).toInt32 bytes
        return .offer (some ⟨id, .ofWire mapper.toInt8, name⟩)
      | short => .error (.truncated .offer headerSize (idSize + short.length))
  | short => .error (.truncated .offer idSize (1 + short.length))

def decodeState : List UInt8 → Except DecodeError Datagram
  | ack :: i0 :: i1 :: i2 :: i3 :: b0 :: b1 :: dpad ::
      lx0 :: lx1 :: ly0 :: ly1 :: rx0 :: rx1 :: ry0 :: ry1 :: _ =>
    .ok (.state ack (Word.ofBytes32 i0 i1 i2 i3).toInt32
      { buttons := (Word.ofBytes16 b0 b1).toBitVec
        dpad := dpad.toInt8
        leftX := (Word.ofBytes16 lx0 lx1).toInt16
        leftY := (Word.ofBytes16 ly0 ly1).toInt16
        rightX := (Word.ofBytes16 rx0 rx1).toInt16
        rightY := (Word.ofBytes16 ry0 ry1).toInt16 })
  | short => .error (.truncated .state stateSize (1 + short.length))

def decode : List UInt8 → Except DecodeError Datagram
  | [] => .error .empty
  | code :: body =>
    if code = offerCode then decodeOffer body
    else if code = stateCode then decodeState body
    else if code = releaseCode then .ok .release
    else .error (.unknownCode code)

end Datagram

def DiscoveryRequest.decode : List UInt8 → Except Datagram.DecodeError DiscoveryRequest
  | [] => .error .empty
  | code :: body =>
    if code = Datagram.offerCode then
      match body with
      | want :: enable :: p0 :: p1 :: p2 :: p3 :: _ =>
        .ok ⟨want, enable, (Word.ofBytes32 p0 p1 p2 p3).toInt32⟩
      | short => .error (.truncated .offer Datagram.requestSize (1 + short.length))
    else .error (.unknownCode code)

end VirtualPad
