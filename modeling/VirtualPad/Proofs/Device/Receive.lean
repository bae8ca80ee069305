import Mathlib.Tactic.SplitIfs
import VirtualPad.Device.Receive

/-!
# What a datagram does

The cases of an offer and of a state, each with the condition under which it arises.
-/
namespace VirtualPad

namespace Datagram

theorem id_pos_of_decodeOffer {bytes : List UInt8} {c : Controller}
    (h : decodeOffer bytes = .ok (.offer (some c))) : 0 < c.id := by
  simp only [decodeOffer] at h
  split at h
  · next i0 i1 i2 i3 body =>
    by_cases hid : (Word.ofBytes32 i0 i1 i2 i3).toInt32 ≤ 0
    · simp [hid] at h
    · simp only [hid, if_false] at h
      split at h
      · next mapper n0 n1 n2 n3 name =>
        cases hn : decodeName (Word.ofBytes32 n0 n1 n2 n3).toInt32 name with
        | error e => simp [hn, bind, Except.bind] at h
        | ok text =>
          simp only [hn, bind, Except.bind, pure, Except.pure, Except.ok.injEq, offer.injEq,
            Option.some.injEq] at h
          subst h
          exact Int32.not_le.mp hid
      · cases h
  · cases h

theorem id_pos_of_decode {bytes : List UInt8} {c : Controller}
    (h : decode bytes = .ok (.offer (some c))) : 0 < c.id := by
  simp only [decode] at h
  split at h
  · cases h
  · split_ifs at h with ho hs hr
    · exact id_pos_of_decodeOffer h
    · simp only [decodeState] at h
      split at h <;> simp at h
    · cases h

def Keeps (c : Controller) : Datagram → Prop
  | .offer c? => c? = some c
  | .state ack id _ => ack = 1 ∧ id = c.id
  | .release => False

def sample? : Datagram → Option Sample
  | .state _ _ s => some s
  | .offer _ => none
  | .release => none

end Datagram

namespace Device

variable {d : Device} {c : Controller}

/-- The layout handed out, if there is one, is that of the mapper of `c`. -/
def Fits (d : Device) (c : Controller) : Prop :=
  d.pinned? = none ∨ d.pinned? = some c.mapper

theorem fits_iff : d.Fits c ↔ ¬ d.pinned?.any (· ≠ c.mapper) = true := by
  simp only [Fits]
  cases d.pinned? <;> simp

theorem bind_conflict (h : ¬ d.Fits c) : d.bind c = (.mapperConflict, d.unbind) := by
  rw [fits_iff, Decidable.not_not] at h
  exact if_pos h

theorem bind_same (h : d.Fits c) (hc : d.controller? = some c) : d.bind c = (.unchanged, d) := by
  rw [bind, if_neg (fits_iff.mp h), if_pos hc]

theorem bind_other (h : d.Fits c) (hc : d.controller? ≠ some c) :
    d.bind c = (.bound, { d with controller? := some c, sample := .zero, published := .zero }) := by
  rw [bind, if_neg (fits_iff.mp h), if_neg hc]

theorem bind_cases (d : Device) (c : Controller) :
    (¬ d.Fits c ∧ d.bind c = (.mapperConflict, d.unbind)) ∨
    (d.Fits c ∧ d.controller? = some c ∧ d.bind c = (.unchanged, d)) ∨
    (d.Fits c ∧ d.controller? ≠ some c ∧ d.bind c =
      (.bound, { d with controller? := some c, sample := .zero, published := .zero })) := by
  by_cases hf : d.Fits c
  · by_cases hc : d.controller? = some c
    · exact .inr (.inl ⟨hf, hc, bind_same hf hc⟩)
    · exact .inr (.inr ⟨hf, hc, bind_other hf hc⟩)
  · exact .inl ⟨hf, bind_conflict hf⟩

theorem hearState_cases (d : Device) (ack : UInt8) (id : Int32) (s : Sample) :
    (d.controller? = none ∧ d.hearState ack id s = d.quiet) ∨
    ∃ c, d.controller? = some c ∧
      (((ack = 1 ∧ id = c.id) ∧ d.hearState ack id s =
        ⟨{ d with sample := s }, false, if d.sample ≠ s then d.wake? else none⟩) ∨
      (¬ (ack = 1 ∧ id = c.id) ∧ d.hearState ack id s = d.unbind.quiet)) := by
  cases hc : d.controller? with
  | none => exact .inl ⟨rfl, by simp only [hearState, hc]⟩
  | some c =>
    refine .inr ⟨c, rfl, ?_⟩
    by_cases h : ack = 1 ∧ id = c.id
    · exact .inl ⟨h, by simp [hearState, hc, h, store, wake?]⟩
    · exact .inr ⟨h, by simp only [hearState, hc, if_neg h]⟩

theorem layout_bind (d : Device) (c : Controller) : (d.bind c).2.layout? = d.layout? := by
  rcases d.bind_cases c with ⟨-, hr⟩ | ⟨-, -, hr⟩ | ⟨-, -, hr⟩ <;> rw [hr]
  rfl

theorem layout_hear (d : Device) (datagram : Datagram) :
    (d.hear datagram).device.layout? = d.layout? := by
  cases datagram with
  | offer c? =>
    cases c? with
    | none => rfl
    | some c => exact layout_bind d c
  | state ack id s =>
    rw [hear]
    rcases d.hearState_cases ack id s with ⟨-, hr⟩ | ⟨c, -, ⟨-, hr⟩ | ⟨-, hr⟩⟩ <;> rw [hr] <;> rfl
  | release => rfl

theorem layout_receive (d : Device) (bytes : List UInt8) :
    (d.receive bytes).device.layout? = d.layout? := by
  simp only [receive]
  cases Datagram.decode bytes with
  | ok datagram => exact layout_hear d datagram
  | error e => rfl

theorem controller_hear (hd : ∀ e, d.controller? = some e → d.Fits e) (datagram : Datagram) :
    (d.hear datagram).device.controller? = some c ↔
      (datagram = .offer (some c) ∧ d.Fits c) ∨
      (d.controller? = some c ∧ Datagram.Keeps c datagram) := by
  cases datagram with
  | offer c? =>
    cases c? with
    | none => simp [hear, hearOffer, unbind, quiet, Datagram.Keeps]
    | some e =>
      simp only [hear, hearOffer, Datagram.Keeps, Datagram.offer.injEq, Option.some.injEq]
      rcases d.bind_cases e with ⟨hf, hr⟩ | ⟨hf, he, hr⟩ | ⟨hf, he, hr⟩ <;> rw [hr]
      · constructor
        · intro h
          cases h
        · rintro (⟨rfl, h⟩ | ⟨h, rfl⟩)
          · exact absurd h hf
          · exact absurd (hd _ h) hf
      · constructor
        · intro h
          exact .inr ⟨h, Option.some.inj (he.symm.trans h)⟩
        · rintro (⟨rfl, -⟩ | ⟨h, -⟩)
          · exact he
          · exact h
      · constructor
        · intro h
          cases h
          exact .inl ⟨rfl, hf⟩
        · rintro (⟨rfl, -⟩ | ⟨-, rfl⟩) <;> rfl
  | state ack id s =>
    rw [hear]
    rcases d.hearState_cases ack id s with ⟨hn, hr⟩ | ⟨e, he, ⟨h, hr⟩ | ⟨h, hr⟩⟩ <;> rw [hr]
    · simp [quiet, hn]
    · simp only [he, Option.some.injEq, Datagram.Keeps, reduceCtorEq, false_and, false_or]
      exact ⟨fun hec => ⟨hec, hec ▸ h⟩, fun hec => hec.1⟩
    · simp only [quiet, unbind, he, Option.some.injEq, Datagram.Keeps, reduceCtorEq, false_and,
        false_or, false_iff]
      rintro ⟨rfl, hk⟩
      exact h hk
  | release => simp [hear, unbind, quiet, Datagram.Keeps]

theorem sample_hear_of_keeps (hc : d.controller? = some c) (hf : d.Fits c) {datagram : Datagram}
    (hk : Datagram.Keeps c datagram) :
    (d.hear datagram).device.sample = datagram.sample?.getD d.sample := by
  cases datagram with
  | offer c? =>
    cases hk
    simp only [hear, hearOffer]
    rw [bind_same hf hc]
    rfl
  | state ack id s =>
    rw [hear]
    rcases d.hearState_cases ack id s with ⟨hn, -⟩ | ⟨e, he, ⟨-, hr⟩ | ⟨h, -⟩⟩
    · cases hc.symm.trans hn
    · rw [hr]
      rfl
    · cases hc.symm.trans he
      exact absurd hk h
  | release => cases hk

theorem sample_hear_offer (hc : d.controller? ≠ some c) (hf : d.Fits c) :
    (d.hear (.offer (some c))).device.sample = .zero := by
  simp only [hear, hearOffer]
  rw [bind_other hf hc]

theorem sample_hear_of_unbound (hz : d.controller? = none → d.sample = .zero)
    (datagram : Datagram) (hn : (d.hear datagram).device.controller? = none) :
    (d.hear datagram).device.sample = .zero := by
  cases datagram with
  | offer c? =>
    cases c? with
    | none => rfl
    | some e =>
      simp only [hear, hearOffer] at hn ⊢
      rcases d.bind_cases e with ⟨-, hr⟩ | ⟨-, he, hr⟩ | ⟨-, -, hr⟩ <;> rw [hr] at hn ⊢
      · rfl
      · cases he.symm.trans hn
  | state ack id s =>
    rw [hear] at hn ⊢
    rcases d.hearState_cases ack id s with ⟨h, hr⟩ | ⟨e, he, ⟨-, hr⟩ | ⟨-, hr⟩⟩ <;> rw [hr] at hn ⊢
    · exact hz h
    · cases he.symm.trans hn
    · rfl
  | release => rfl

theorem dropped_hear (d : Device) (datagram : Datagram) :
    (d.hear datagram).dropped = true ↔ ∃ c, datagram = .offer (some c) ∧ ¬ d.Fits c := by
  cases datagram with
  | offer c? =>
    cases c? with
    | none => simp [hear, hearOffer, quiet]
    | some e =>
      simp only [hear, hearOffer, Datagram.offer.injEq, Option.some.injEq, exists_eq_left']
      rcases d.bind_cases e with ⟨hf, hr⟩ | ⟨hf, -, hr⟩ | ⟨hf, -, hr⟩ <;> simp [hr, hf]
  | state ack id s =>
    rw [hear]
    rcases d.hearState_cases ack id s with ⟨-, hr⟩ | ⟨e, -, ⟨-, hr⟩ | ⟨-, hr⟩⟩ <;> simp [hr, quiet]
  | release => simp [hear, quiet]

end Device
end VirtualPad
