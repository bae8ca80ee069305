import VirtualPad.Proofs.Device.Receive

/-!
# Turns of a binding

A datagram does one of three things to the device. It begins or ends a binding and leaves nothing of
what was before, it renews the sample of the controller that is bound, or it changes nothing.
-/
namespace VirtualPad
namespace Device
open Datagram (decode)

def taken? (d : Device) : Datagram → Option Controller
  | .offer (some c) => if d.pinned?.any (· ≠ c.mapper) then none else some c
  | .offer none => none
  | .state _ _ _ => none
  | .release => none

/-- A binding begins or ends with the datagram. -/
def turnsAt (d : Device) : Datagram → Bool
  | .offer (some c) => (d.bind c).1 ≠ .unchanged
  | .offer none => true
  | .state ack id _ => d.controller?.any fun c => ¬ (ack = 1 ∧ id = c.id)
  | .release => true

def RenewedBy (d : Device) (datagram : Datagram) : Prop :=
  ∃ c s, d.controller? = some c ∧ datagram = .state 1 c.id s ∧ s ≠ d.sample

def startOver (d : Device) (c? : Option Controller) : Device :=
  { d with controller? := c?, sample := .zero, published := .zero }

theorem taken?_of_fits {d : Device} {c : Controller} (h : d.Fits c) :
    d.taken? (.offer (some c)) = some c :=
  if_neg (fits_iff.1 h)

theorem taken?_of_not_fits {d : Device} {c : Controller} (h : ¬ d.Fits c) :
    d.taken? (.offer (some c)) = none := by
  rw [fits_iff, Decidable.not_not] at h
  exact if_pos h

theorem hear_cases (d : Device) (datagram : Datagram) :
    (d.turnsAt datagram = true ∧ (d.hear datagram).device = d.startOver (d.taken? datagram) ∧
      (d.hear datagram).wake? = none) ∨
    (d.turnsAt datagram = false ∧ d.RenewedBy datagram ∧
      (∃ s, (d.hear datagram).device = { d with sample := s }) ∧
      (d.hear datagram).wake? = d.wake?) ∨
    (d.turnsAt datagram = false ∧ ¬ d.RenewedBy datagram ∧ (d.hear datagram).device = d ∧
      (d.hear datagram).wake? = none) := by
  cases datagram with
  | offer c? =>
    cases c? with
    | none => exact .inl ⟨rfl, rfl, rfl⟩
    | some c =>
      simp only [hear, hearOffer, turnsAt]
      rcases d.bind_cases c with ⟨hf, hr⟩ | ⟨hf, hc, hr⟩ | ⟨hf, hc, hr⟩ <;> rw [hr]
      · rw [taken?_of_not_fits hf]
        exact .inl ⟨rfl, rfl, trivial⟩
      · refine .inr (.inr ⟨rfl, ?_, rfl, trivial⟩)
        rintro ⟨c', s, -, hd, -⟩
        cases hd
      · rw [taken?_of_fits hf]
        exact .inl ⟨rfl, rfl, trivial⟩
  | state ack id s =>
    simp only [hear]
    rcases d.hearState_cases ack id s with ⟨hn, hr⟩ | ⟨c, hc, ⟨hack, hr⟩ | ⟨hack, hr⟩⟩ <;> rw [hr]
    · refine .inr (.inr ⟨by simp [turnsAt, hn], ?_, rfl, rfl⟩)
      rintro ⟨c, s, hc, -, -⟩
      cases hn.symm.trans hc
    · have hkeep : d.turnsAt (.state ack id s) = false := by simp [turnsAt, hc, hack]
      by_cases hs : d.sample = s
      · refine .inr (.inr ⟨hkeep, ?_, by rw [← hs], by simp [hs]⟩)
        rintro ⟨c', s', -, hd, hne⟩
        cases hd
        exact hne hs.symm
      · refine .inr (.inl ⟨hkeep, ⟨c, s, hc, ?_, Ne.symm hs⟩, ⟨s, rfl⟩, by simp [hs]⟩)
        rw [hack.1, hack.2]
    · exact .inl ⟨by simp only [turnsAt, hc, Option.any_some, hack, not_false_eq_true, decide_true],
        rfl, rfl⟩
  | release => exact .inl ⟨rfl, rfl, rfl⟩

/-! ## Bytes -/

def turnsOn (d : Device) (bytes : List UInt8) : Bool :=
  match decode bytes with
  | .ok datagram => d.turnsAt datagram
  | .error _ => false

def RenewedOn (d : Device) (bytes : List UInt8) : Prop :=
  ∃ datagram, decode bytes = .ok datagram ∧ d.RenewedBy datagram

theorem receive_cases (d : Device) (bytes : List UInt8) :
    (d.turnsOn bytes = true ∧ (∃ c?, (d.receive bytes).device = d.startOver c?) ∧
      (d.receive bytes).wake? = none) ∨
    (d.turnsOn bytes = false ∧ d.RenewedOn bytes ∧
      (∃ s, (d.receive bytes).device = { d with sample := s }) ∧
      (d.receive bytes).wake? = d.wake?) ∨
    (d.turnsOn bytes = false ∧ ¬ d.RenewedOn bytes ∧ (d.receive bytes).device = d ∧
      (d.receive bytes).wake? = none) := by
  simp only [receive, turnsOn, RenewedOn]
  cases decode bytes with
  | error e => exact .inr (.inr ⟨rfl, by simp, rfl, rfl⟩)
  | ok datagram =>
    simp only [Except.ok.injEq, exists_eq_left']
    rcases d.hear_cases datagram with ⟨ht, hd, hw⟩ | h | h
    · exact .inl ⟨ht, ⟨_, hd⟩, hw⟩
    · exact .inr (.inl h)
    · exact .inr (.inr h)

theorem receive_frame (d : Device) (bytes : List UInt8) :
    ∃ controller? sample published,
      (d.receive bytes).device = { d with controller?, sample, published } := by
  rcases d.receive_cases bytes with ⟨-, ⟨c?, hd⟩, -⟩ | ⟨-, -, ⟨s, hd⟩, -⟩ | ⟨-, -, hd, -⟩ <;> rw [hd]
  · exact ⟨c?, .zero, .zero, rfl⟩
  · exact ⟨d.controller?, s, d.published, rfl⟩
  · exact ⟨d.controller?, d.sample, d.published, rfl⟩

theorem published_receive (d : Device) (bytes : List UInt8) :
    (d.receive bytes).device.published = d.published ∨
      (d.receive bytes).device.published = .zero := by
  rcases d.receive_cases bytes with ⟨-, ⟨c?, hd⟩, -⟩ | ⟨-, -, ⟨s, hd⟩, -⟩ | ⟨-, -, hd, -⟩ <;> rw [hd]
  · exact .inr rfl
  · exact .inl rfl
  · exact .inl rfl

end Device
end VirtualPad
