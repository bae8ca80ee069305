import VirtualPad.Datagram.Encode
import VirtualPad.Proofs.Datagram.Grammar

/-!
# The way of states and requests

A state, a request or a release that is written is read again with every field, whatever follows
it. Bytes that are read as a state start with this state as it is written.
-/
namespace VirtualPad.Datagram

theorem decode_encodeState_append (ack : UInt8) (id : Int32) (s : Sample) (rest : List UInt8) :
    decode (encodeState ack id s ++ rest) = .ok (.state ack id s) := by
  have hbuttons : (UInt16.ofBitVec s.buttons).toBitVec = s.buttons := rfl
  have hstate : ¬ stateCode = offerCode := by decide
  simp only [encodeState, Word.bytes32, Word.bytes16, List.cons_append, List.nil_append, decode,
    if_neg hstate, if_true, decodeState, Word.ofBytes32_bytes32, Word.ofBytes16_bytes16,
    Int32.toInt32_toUInt32, Int16.toInt16_toUInt16, Int8.toInt8_toUInt8, hbuttons]

variable {ack : UInt8} {id : Int32} {s : Sample}

theorem decodeState_of_decode {bytes : List UInt8} (h : decode bytes = .ok (.state ack id s)) :
    ∃ body, bytes = stateCode :: body ∧ decodeState body = .ok (.state ack id s) := by
  have hgrammar := grammar_decode bytes
  rw [h] at hgrammar
  cases hgrammar with
  | state hcode hlength =>
    obtain ⟨body, rfl⟩ := exists_body hcode
    exact ⟨body, rfl, h⟩

theorem encodeState_of_decodeState {body : List UInt8}
    (h : decodeState body = .ok (.state ack id s)) :
    (stateCode :: body).take 17 = encodeState ack id s := by
  simp only [decodeState] at h
  split at h
  · next i0 i1 i2 i3 b0 b1 dpad lx0 lx1 ly0 ly1 rx0 rx1 ry0 ry1 rest =>
    cases h
    have hbuttons : UInt16.ofBitVec (Word.ofBytes16 b0 b1).toBitVec = Word.ofBytes16 b0 b1 := rfl
    simp only [encodeState, UInt32.toUInt32_toInt32, UInt16.toUInt16_toInt16,
      UInt8.toUInt8_toInt8, hbuttons, Word.bytes32_ofBytes32, Word.bytes16_ofBytes16]
    rfl
  · cases h

theorem decode_eq_state_iff (bytes : List UInt8) :
    decode bytes = .ok (.state ack id s) ↔ bytes.take 17 = encodeState ack id s := by
  constructor
  · intro h
    obtain ⟨body, rfl, hbody⟩ := decodeState_of_decode h
    exact encodeState_of_decodeState hbody
  · intro h
    rw [← List.take_append_drop 17 bytes, h]
    exact decode_encodeState_append ack id s _

theorem decodeRequest_encode_append (processId : UInt32) (rest : List UInt8) :
    DiscoveryRequest.decode (DiscoveryRequest.encode processId ++ rest) =
      .ok ⟨0, 1, processId.toInt32⟩ := by
  simp only [DiscoveryRequest.encode, padded, Word.bytes32, List.cons_append, List.nil_append,
    DiscoveryRequest.decode, if_true, Word.ofBytes32_bytes32]

/-- What is written is read again with every field, whatever follows it, and bytes are read as a state
exactly when they start with it as it is written. -/
theorem frames_round_trip :
    (∀ ack id s rest, decode (encodeState ack id s ++ rest) = .ok (.state ack id s)) ∧
    (∀ ack id s, (encodeState ack id s).length = 17) ∧
    (∀ bytes ack id s, decode bytes = .ok (.state ack id s) ↔
      bytes.take 17 = encodeState ack id s) ∧
    (∀ processId rest, ∃ request,
      DiscoveryRequest.decode (DiscoveryRequest.encode processId ++ rest) = .ok request ∧
      request.wantNotify = 0 ∧ request.notifyEnable = 1 ∧
      request.processId.toBitVec = processId.toBitVec) ∧
    ∀ rest, decode (encodeRelease ++ rest) = .ok .release := by
  refine ⟨decode_encodeState_append, fun _ _ _ => rfl, fun bytes _ _ _ => decode_eq_state_iff bytes,
    ?_, fun _ => rfl⟩
  intro processId rest
  exact ⟨_, decodeRequest_encode_append processId rest, rfl, rfl, rfl⟩

end VirtualPad.Datagram
