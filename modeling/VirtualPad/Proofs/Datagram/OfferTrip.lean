import VirtualPad.Datagram.Decode
import VirtualPad.Datagram.Encode
import VirtualPad.Proofs.Text.Utf8

/-!
# The way of an offer

An offer that is written and read again is the same but for its name, which is cut to the room in
the datagram. The second way changes nothing more.
-/
namespace VirtualPad.Datagram

def arriving (c : Controller) : Controller :=
  { c with name := .ofList (Utf8.cut maxNameSize c.name.toList) }

theorem decodeName_append {name : List UInt8} (h : name.length ≤ maxNameSize)
    (padding : List UInt8) :
    decodeName (UInt32.ofNat name.length).toInt32 (name ++ padding) =
      .ok (Utf8.decodeLossy name) := by
  have hm : maxNameSize = 54 := rfl
  have hl : (UInt32.ofNat name.length).toInt32.toInt = name.length := by
    rw [UInt32.toInt32_ofNat']
    exact Int32.toInt_ofNat_of_lt (by omega)
  have hr : (name.length : Int) ≤ (name ++ padding).length := by
    rw [List.length_append]
    omega
  rw [decodeName, hl, if_pos ⟨by omega, hr⟩, Int.toNat_natCast, List.take_left]

theorem ofWire_wireByte (m : Mapper) : Mapper.ofWire m.toWire.toUInt8.toInt8 = m := by
  rw [Int8.toInt8_toUInt8, Mapper.ofWire_toWire]

theorem decode_encodeOffer_none : decode (encodeOffer none) = .ok (.offer none) := rfl

theorem decode_encodeOffer_some (c : Controller) :
    decode (encodeOffer (some c)) =
      .ok (.offer (if c.id ≤ 0 then none else some (arriving c))) := by
  have hname : ((Utf8.encode c.name).take maxNameSize).length ≤ maxNameSize :=
    List.length_take_le _ _
  simp only [encodeOffer, padded, Word.bytes32, List.cons_append, List.nil_append, decode,
    if_true, decodeOffer, Word.ofBytes32_bytes32, Int32.toInt32_toUInt32, ofWire_wireByte,
    decodeName_append hname, Utf8.decodeLossy_take]
  split_ifs <;> rfl

theorem arriving_arriving (c : Controller) : arriving (arriving c) = arriving c := by
  simp only [arriving, String.toList_ofList, Utf8.cut_cut]

theorem length_encode (text : String) : (Utf8.encode text).length = Utf8.size text.toList := rfl

theorem arriving_name_of_le {c : Controller} (h : (Utf8.encode c.name).length ≤ maxNameSize) :
    (arriving c).name = c.name := by
  rw [length_encode] at h
  rw [arriving, Utf8.cut_eq_self h, String.ofList_toList]

/-- The whole characters that fit into the datagram, and a replacement character for one that is
cut inside. -/
theorem arriving_name_of_lt {c : Controller} (h : maxNameSize < (Utf8.encode c.name).length) :
    ∃ kept, kept <+: c.name.toList ∧ Utf8.size kept ≤ maxNameSize ∧
      (∀ longer, longer <+: c.name.toList → Utf8.size longer ≤ maxNameSize → longer <+: kept) ∧
      (arriving c).name.toList =
        kept ++ if Utf8.size kept = maxNameSize then [] else ['\uFFFD'] := by
  rw [length_encode] at h
  have hs := Utf8.size_fitting_le maxNameSize c.name.toList
  refine ⟨_, Utf8.fitting_isPrefix _ _, hs, fun _ => Utf8.isPrefix_fitting, ?_⟩
  rw [arriving, String.toList_ofList, Utf8.cut, Nat.min_eq_left (Nat.le_of_lt h)]
  split_ifs with hlt heq
  · omega
  · rfl
  · rfl
  · omega

/-- An offer of no controller, or of one without a positive id, arrives as an offer of none. Any
other arrives with its name cut to fifty-four bytes, and arrives the same when sent on. -/
theorem decode_encodeOffer :
    decode (encodeOffer none) = .ok (.offer none) ∧
    (∀ c : Controller, c.id ≤ 0 → decode (encodeOffer (some c)) = .ok (.offer none)) ∧
    ∀ c : Controller, 0 < c.id → ∃ name : String,
      decode (encodeOffer (some c)) = .ok (.offer (some { c with name })) ∧
      ((Utf8.encode c.name).length ≤ 54 → name = c.name) ∧
      (54 < (Utf8.encode c.name).length →
        ∃ kept, kept <+: c.name.toList ∧ Utf8.size kept ≤ 54 ∧
          (∀ longer, longer <+: c.name.toList → Utf8.size longer ≤ 54 → longer <+: kept) ∧
          name.toList = kept ++ if Utf8.size kept = 54 then [] else ['\uFFFD']) ∧
      (Utf8.encode name).length ≤ 56 ∧
      decode (encodeOffer (some { c with name })) = .ok (.offer (some { c with name })) := by
  refine ⟨decode_encodeOffer_none, ?_, ?_⟩
  · intro c hc
    rw [decode_encodeOffer_some, if_pos hc]
  · intro c hc
    have hn : ¬ c.id ≤ 0 := Int32.not_le.mpr hc
    refine ⟨(arriving c).name, ?_, arriving_name_of_le, arriving_name_of_lt, ?_, ?_⟩
    · rw [decode_encodeOffer_some, if_neg hn]
      rfl
    · rw [length_encode, arriving, String.toList_ofList]
      exact Utf8.size_cut_le maxNameSize _
    · have ha : (arriving (arriving c)) = arriving c := arriving_arriving c
      have hd := decode_encodeOffer_some (arriving c)
      rw [ha, if_neg (show ¬ (arriving c).id ≤ 0 from hn)] at hd
      exact hd

def wideController : Controller :=
  ⟨1, .standard, .ofList (List.replicate 53 'a' ++ ['é'])⟩

theorem decode_encodeOffer_wide :
    0 < wideController.id ∧ 54 < (Utf8.encode wideController.name).length ∧ ∃ name : String,
      decode (encodeOffer (some wideController)) =
        .ok (.offer (some { wideController with name })) ∧
      (∃ kept, kept <+: wideController.name.toList ∧ Utf8.size kept ≤ 54 ∧
        (∀ longer, longer <+: wideController.name.toList → Utf8.size longer ≤ 54 →
          longer <+: kept) ∧
        name.toList = kept ++ if Utf8.size kept = 54 then [] else ['\uFFFD']) ∧
      (Utf8.encode name).length = 56 := by
  have hid : 0 < wideController.id := by decide
  have hlen : 54 < (Utf8.encode wideController.name).length := by
    rw [length_encode, wideController, String.toList_ofList]
    decide
  obtain ⟨name, hd, -, hk, -, -⟩ := decode_encodeOffer.2.2 wideController hid
  have ha := decode_encodeOffer_some wideController
  rw [hd, if_neg (Int32.not_le.mpr hid), Except.ok.injEq, offer.injEq, Option.some.injEq] at ha
  have hname : name = (arriving wideController).name := congrArg Controller.name ha
  refine ⟨hid, hlen, name, hd, hk hlen, ?_⟩
  rw [hname, length_encode, arriving, wideController, String.toList_ofList, String.toList_ofList]
  decide

end VirtualPad.Datagram
