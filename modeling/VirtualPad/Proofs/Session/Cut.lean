import Mathlib.Data.List.GetD
import VirtualPad.Datagram.Encode
import VirtualPad.Proofs.Datagram.Grammar
import VirtualPad.Proofs.Session.Repeat
import VirtualPad.Proofs.Session.Resume

/-!
# Datagrams that are cut

A datagram is taken into a buffer, and what does not fit is lost. What is left of it may be no datagram
any more, but it is never another one: the fields that are read say where the datagram ends, and nothing
after that end is looked at.
-/
namespace VirtualPad

namespace Datagram

/-! ## Bytes that follow -/

section
variable {bytes : List UInt8} {place : Nat}

theorem byteAt_append (h : place < bytes.length) (rest : List UInt8) :
    byteAt (bytes ++ rest) place = byteAt bytes place :=
  List.getD_append _ _ _ _ h

theorem word16At_append (h : place + 1 < bytes.length) (rest : List UInt8) :
    word16At (bytes ++ rest) place = word16At bytes place := by
  rw [word16At, byteAt_append (Nat.lt_of_succ_lt h), byteAt_append h, word16At]

theorem word32At_append (h : place + 3 < bytes.length) (rest : List UInt8) :
    word32At (bytes ++ rest) place = word32At bytes place := by
  have h0 : place < bytes.length := by omega
  have h1 : place + 1 < bytes.length := by omega
  have h2 : place + 2 < bytes.length := by omega
  rw [word32At, byteAt_append h0, byteAt_append h1, byteAt_append h2, byteAt_append h, word32At]

theorem idAt_append (h : place + 3 < bytes.length) (rest : List UInt8) :
    idAt (bytes ++ rest) place = idAt bytes place :=
  congrArg UInt32.toInt32 (word32At_append h rest)

theorem nameLength_append (h : 10 ≤ bytes.length) (rest : List UInt8) :
    nameLength (bytes ++ rest) = nameLength bytes :=
  congrArg UInt32.toInt32 (word32At_append h rest)

theorem NameFits.append (h : 10 ≤ bytes.length) (hname : NameFits bytes) (rest : List UInt8) :
    NameFits (bytes ++ rest) := by
  obtain ⟨hnonneg, hle⟩ := hname
  rw [NameFits, nameLength_append h, List.length_append]
  omega

/-- The length of the name is checked against what came, so that a name is never cut unnoticed. -/
theorem controllerAt_append (h : 10 ≤ bytes.length) (hname : NameFits bytes)
    (rest : List UInt8) : controllerAt (bytes ++ rest) = controllerAt bytes := by
  obtain ⟨hnonneg, hle⟩ := hname
  have hlength : (nameLength bytes).toInt.toNat ≤ (bytes.drop 10).length := by
    rw [List.length_drop]
    omega
  have hbytes : nameBytes (bytes ++ rest) = nameBytes bytes := by
    rw [nameBytes, nameLength_append h, List.drop_append_of_le_length h,
      List.take_append_of_le_length hlength, nameBytes]
  have h1 : 1 + 3 < bytes.length := by omega
  have h5 : 5 < bytes.length := by omega
  rw [controllerAt, idAt_append h1, byteAt_append h5, hbytes, controllerAt]

theorem sampleAt_append (h : 17 ≤ bytes.length) (rest : List UInt8) :
    sampleAt (bytes ++ rest) = sampleAt bytes := by
  have h6 : 6 + 1 < bytes.length := by omega
  have h8 : 8 < bytes.length := by omega
  have h9 : 9 + 1 < bytes.length := by omega
  have h11 : 11 + 1 < bytes.length := by omega
  have h13 : 13 + 1 < bytes.length := by omega
  have h15 : 15 + 1 < bytes.length := by omega
  rw [sampleAt, word16At_append h6, byteAt_append h8, word16At_append h9, word16At_append h11,
    word16At_append h13, word16At_append h15, sampleAt]

end

theorem Grammar.append {bytes : List UInt8} {datagram : Datagram}
    (h : Grammar bytes (.ok datagram)) (rest : List UInt8) :
    Grammar (bytes ++ rest) (.ok datagram) := by
  have hgrows : bytes.length ≤ (bytes ++ rest).length := by simp
  have hcode : ∀ {code : UInt8}, bytes[0]? = some code → (bytes ++ rest)[0]? = some code := by
    intro code hcode
    rw [List.getElem?_append_left (List.getElem?_eq_some_iff.1 hcode).1, hcode]
  cases h with
  | nothingOffered h8 hlength hid =>
    rw [← idAt_append (by omega) rest] at hid
    exact .nothingOffered (hcode h8) (Nat.le_trans hlength hgrows) hid
  | offered h8 hlength hid hname =>
    rw [← idAt_append (by omega) rest] at hid
    rw [← controllerAt_append hlength hname rest]
    exact .offered (hcode h8) (Nat.le_trans hlength hgrows) hid (hname.append hlength rest)
  | state h9 hlength =>
    have hack : 1 < bytes.length := by omega
    have hid : 2 + 3 < bytes.length := by omega
    rw [← byteAt_append hack rest, ← idAt_append hid rest, ← sampleAt_append hlength rest]
    exact .state (hcode h9) (Nat.le_trans hlength hgrows)
  | release h10 => exact .release (hcode h10)

theorem decode_append {bytes : List UInt8} {datagram : Datagram}
    (h : decode bytes = .ok datagram) (rest : List UInt8) :
    decode (bytes ++ rest) = .ok datagram := by
  have hgrammar := grammar_decode bytes
  rw [h] at hgrammar
  exact (hgrammar.append rest).decode_eq

theorem decode_of_decode_take {bytes : List UInt8} {size : Nat} {datagram : Datagram}
    (h : decode (bytes.take size) = .ok datagram) : decode bytes = .ok datagram := by
  rw [← List.take_append_drop size bytes]
  exact decode_append h _

/-! ## The sizes of what is written -/

theorem length_padded {bytes : List UInt8} (h : bytes.length ≤ controlSize) :
    (padded bytes).length = controlSize := by
  rw [padded, List.length_append, List.length_replicate]
  omega

theorem length_encodeOffer (c? : Option Controller) : (encodeOffer c?).length = controlSize := by
  cases c? with
  | none => rfl
  | some c =>
    have hname : ((Utf8.encode c.name).take maxNameSize).length ≤ maxNameSize :=
      List.length_take_le _ _
    have hsize : headerSize + maxNameSize = controlSize := rfl
    apply length_padded
    simp only [Word.bytes32, List.length_append, List.length_cons, List.length_nil]
    have hheader : headerSize = 10 := rfl
    omega

end Datagram

namespace Session
open Datagram (decode controlSize encodeOffer encodeState encodeRelease)

def countReceived (s : Session) : Session :=
  { s with counters.received := s.counters.received + 1 }

theorem receive_eq (s : Session) (bytes : List UInt8) (size : Nat) :
    s.receive bytes size = s.countReceived.dispatch (bytes.take size) := rfl

theorem dispatch_congr (s : Session) {bytes bytes' : List UInt8}
    (h : decode bytes = decode bytes') : s.dispatch bytes = s.dispatch bytes' := by
  have hr : s.device.receive bytes = s.device.receive bytes' := by
    simp only [Device.receive, h]
  simp only [dispatch, hr]

theorem receive_cases (s : Session) (bytes : List UInt8) (size : Nat) :
    s.receive bytes size = s.countReceived.dispatch bytes ∨
    (∃ e, decode (bytes.take size) = .error e) ∧
      s.receive bytes size = s.countReceived.dropMore 1 := by
  rw [receive_eq]
  cases hd : decode (bytes.take size) with
  | ok datagram =>
    have hwhole := Datagram.decode_of_decode_take hd
    exact .inl (dispatch_congr _ (hd.trans hwhole.symm))
  | error e => exact .inr ⟨⟨e, rfl⟩, dispatch_undecodable _ hd⟩

/-! ## Histories -/

def withCounters (s : Session) (counters : Counters) : Session := { s with counters }

theorem deposit_withCounters (s : Session) (counters : Counters) (h? : Option Handle) :
    (s.withCounters counters).deposit h? = (s.deposit h?).withCounters counters := by
  cases h? with
  | none => rfl
  | some h =>
    have hpermits : (s.withCounters counters).permits = s.permits := rfl
    simp only [deposit, hpermits]
    split_ifs <;> rfl

theorem exists_dispatch_withCounters (s : Session) (counters : Counters) (bytes : List UInt8) :
    ∃ counters', (s.withCounters counters).dispatch bytes =
      (s.dispatch bytes).withCounters counters' := by
  have hdevice : (s.withCounters counters).device = s.device := rfl
  have haccept : ∀ r, (s.withCounters counters).accept r = (s.accept r).withCounters counters :=
    fun r => deposit_withCounters (s.withDevice r.device) counters r.wake?
  rw [dispatch_eq, dispatch_eq, hdevice, haccept]
  exact ⟨_, rfl⟩

theorem exists_foldl_withCounters (s : Session) (counters : Counters)
    (history : List (List UInt8)) :
    ∃ counters', history.foldl dispatch (s.withCounters counters) =
      (history.foldl dispatch s).withCounters counters' := by
  induction history generalizing s counters with
  | nil => exact ⟨counters, rfl⟩
  | cons bytes history ih =>
    obtain ⟨counters', h⟩ := s.exists_dispatch_withCounters counters bytes
    rw [List.foldl_cons, h]
    exact ih (s.dispatch bytes) counters'

/-- Taken into buffers of any sizes, some of the datagrams of a history are lost and the others are
heard as a whole. -/
theorem exists_heard (s : Session) (history : List (List UInt8 × Nat)) :
    ∃ (heard : List (List UInt8)) (counters : Counters),
      heard.Sublist (history.map (·.1)) ∧
      history.foldl (fun s p => s.receive p.1 p.2) s =
        (heard.foldl dispatch s).withCounters counters := by
  induction history generalizing s with
  | nil => exact ⟨[], s.counters, .slnil, rfl⟩
  | cons p history ih =>
    obtain ⟨heard, counters, hsub, h⟩ := ih (s.receive p.1 p.2)
    rw [List.foldl_cons, h]
    rcases s.receive_cases p.1 p.2 with hr | ⟨-, hr⟩ <;> rw [hr]
    · obtain ⟨counters', hc⟩ :=
        exists_foldl_withCounters s s.countReceived.counters (p.1 :: heard)
      exact ⟨p.1 :: heard, counters, hsub.cons_cons p.1, congrArg (·.withCounters counters) hc⟩
    · obtain ⟨counters', hc⟩ :=
        exists_foldl_withCounters s (s.countReceived.dropMore 1).counters heard
      exact ⟨heard, counters, hsub.cons p.1, congrArg (·.withCounters counters) hc⟩

/-- In any state. The first bytes of a datagram are the same datagram or none. Taken into a buffer, a
datagram does what the whole of it does, or is dropped and does nothing; over any history some are so
lost and the others are heard. What is written as an offer, a state or a release fits the buffer of
the receive loop. -/
theorem cut_never_misread (s : Session) :
    (∀ bytes size datagram, decode (bytes.take size) = .ok datagram →
      decode bytes = .ok datagram) ∧
    (∀ bytes size,
      s.receive bytes size = s.countReceived.dispatch bytes ∨
      (∃ e, decode (bytes.take size) = .error e) ∧
        s.receive bytes size = s.countReceived.dropMore 1) ∧
    (∀ history : List (List UInt8 × Nat),
      ∃ (heard : List (List UInt8)) (counters : Counters),
        heard.Sublist (history.map (·.1)) ∧
        history.foldl (fun s p => s.receive p.1 p.2) s =
          (heard.foldl dispatch s).withCounters counters) ∧
    (∀ c?, (encodeOffer c?).take controlSize = encodeOffer c?) ∧
    (∀ ack id sample, (encodeState ack id sample).take controlSize = encodeState ack id sample) ∧
    encodeRelease.take controlSize = encodeRelease := by
  refine ⟨fun _ _ _ => Datagram.decode_of_decode_take, s.receive_cases, exists_heard s, ?_, ?_, rfl⟩
  · intro c?
    exact List.take_of_length_le (Nat.le_of_eq (Datagram.length_encodeOffer c?))
  · intro ack id sample
    have hlength : (encodeState ack id sample).length = 17 := rfl
    exact List.take_of_length_le (by rw [hlength]; decide)

def overlong : List UInt8 :=
  encodeState 1 1 ⟨5, 3, -2, 300, 0, 7⟩ ++ [9, 10]

theorem cut_never_misread_overlong :
    decode (overlong.take 17) = .ok (.state 1 1 ⟨5, 3, -2, 300, 0, 7⟩) ∧
    decode overlong = .ok (.state 1 1 ⟨5, 3, -2, 300, 0, 7⟩) ∧
    decode (overlong.take 16) = .error (.truncated .state 17 16) ∧
    (fresh .standard).receive overlong 16 = (fresh .standard).countReceived.dropMore 1 := by
  have hcut : decode (overlong.take 17) = .ok (.state 1 1 ⟨5, 3, -2, 300, 0, 7⟩) := by rfl
  obtain ⟨hsame, -⟩ := cut_never_misread (fresh .standard)
  exact ⟨hcut, hsame _ _ _ hcut, rfl, rfl⟩

end Session
end VirtualPad
