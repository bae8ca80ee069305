import VirtualPad.Proofs.Device.Calls
import VirtualPad.Proofs.Device.Step

/-!
# Coherent devices

The parts of a device fit together: nothing of a controller stays without one, the layout, the
record and the controller agree on the mapper, and only an enumerated device is acquired. Every
run from a fresh device keeps this, in whatever order the two sides act.
-/
namespace VirtualPad
namespace Device

structure Coherent (d : Device) : Prop where
  zero_of_unbound : d.controller? = none → d.sample = .zero ∧ d.published = .zero
  id_pos : ∀ c, d.controller? = some c → 0 < c.id
  mapper_bound : ∀ c l, d.controller? = some c → d.layout? = some l → l.mapper = c.mapper
  acquired_iff : d.acquired = true ↔ ∃ h, d.handle? = some h
  pinned_of_acquired : d.acquired = true → ∃ l, d.layout? = some l
  recorded_iff : (∃ l, d.layout? = some l) ↔ ∃ r, d.record? = some r
  mapper_recorded : ∀ l r, d.layout? = some l → d.record? = some r → r.mapper = l.mapper
  /-- Before the first enumeration nothing is published or numbered. -/
  zero_of_unpinned : d.layout? = none → d.published = .zero ∧ d.sequence = 0

namespace Coherent

variable {d : Device}

theorem fresh : Coherent .fresh where
  zero_of_unbound _ := ⟨rfl, rfl⟩
  id_pos _ hc := by cases hc
  mapper_bound _ _ hc := by cases hc
  acquired_iff := by simp [Device.fresh]
  pinned_of_acquired h := by cases h
  recorded_iff := by simp [Device.fresh]
  mapper_recorded _ _ hl := by cases hl
  zero_of_unpinned _ := ⟨rfl, rfl⟩

theorem unbind (h : d.Coherent) : d.unbind.Coherent :=
  { h with
    zero_of_unbound := fun _ => ⟨rfl, rfl⟩
    id_pos := fun _ hc => by cases hc
    mapper_bound := fun _ _ hc => by cases hc
    zero_of_unpinned := fun hl => ⟨rfl, (h.zero_of_unpinned hl).2⟩ }

theorem bind (h : d.Coherent) {c : Controller} (hc : 0 < c.id) : (d.bind c).2.Coherent := by
  rcases d.bind_cases c with ⟨-, hr⟩ | ⟨-, -, hr⟩ | ⟨hf, -, hr⟩ <;> rw [hr]
  · exact h.unbind
  · exact h
  · exact
      { h with
        zero_of_unbound := nofun
        id_pos := fun e he => by
          cases he
          exact hc
        mapper_bound := fun e l he hl => by
          cases he
          simpa [Fits, pinned?, show d.layout? = some l from hl] using hf
        zero_of_unpinned := fun hl => ⟨rfl, (h.zero_of_unpinned hl).2⟩ }

theorem store (h : d.Coherent) (s : Sample) (hb : d.isBound) : (d.store s).2.Coherent :=
  { h with
    zero_of_unbound := fun hn => by
      simp [isBound, show d.controller? = none from hn] at hb }

theorem unacquire (h : d.Coherent) : d.unacquire.Coherent :=
  { h with
    acquired_iff := by simp [Device.unacquire]
    pinned_of_acquired := fun ha => by cases ha }

theorem acquire (h : d.Coherent) (handle : Handle) : (d.acquire handle).2.Coherent := by
  cases hc : d.controller? with
  | none =>
    rw [acquire_unbound hc]
    exact h.unacquire
  | some c =>
    cases hl : d.layout? with
    | none =>
      rw [acquire_unpinned hc hl]
      exact h
    | some l =>
      rw [acquire_pinned hc hl]
      exact
        { h with
          acquired_iff := by simp
          pinned_of_acquired := fun _ => ⟨l, hl⟩ }

/-- A layout that is pinned fits the controller, so that only a missing one is ever built. -/
theorem layout_none_of_ne (h : d.Coherent) {c : Controller} (hc : d.controller? = some c)
    (hp : d.pinned? ≠ some c.mapper) : d.layout? = none := by
  cases hl : d.layout? with
  | none => rfl
  | some l => simp [pinned?, hl, h.mapper_bound c l hc hl] at hp

theorem pin (h : d.Coherent) : d.pin.2.Coherent := by
  cases hc : d.controller? with
  | none =>
    rw [pin_unbound hc]
    exact h
  | some c =>
    by_cases hp : d.pinned? = some c.mapper
    · rw [pin_again hc hp]
      obtain ⟨l, hl, hm⟩ : ∃ l, d.layout? = some l ∧ l.mapper = c.mapper := by
        simpa [pinned?] using hp
      exact
        { h with
          recorded_iff := by simp [hl]
          mapper_recorded := fun l' r hl' hr => by
            cases hr
            cases hl.symm.trans hl'
            exact hm.symm }
    · rw [pin_first hc hp]
      have hl : d.layout? = none := h.layout_none_of_ne hc hp
      exact
        { h with
          zero_of_unbound := fun hn => ⟨(h.zero_of_unbound hn).1, rfl⟩
          mapper_bound := fun e l he hl' => by
            cases hc.symm.trans he
            cases hl'
            exact Layout.mapper_ofMapper c.mapper
          pinned_of_acquired := fun _ => ⟨_, rfl⟩
          recorded_iff := by simp
          mapper_recorded := fun l r hl' hr => by
            cases hl'
            cases hr
            exact (Layout.mapper_ofMapper c.mapper).symm
          zero_of_unpinned := fun hn => by cases hn }

theorem read {β κ : Type} [StateSink β] [EventSink κ] (h : d.Coherent) (buffer : β) (queue : κ) :
    (d.read buffer queue).device.Coherent := by
  rcases read_cases d buffer queue with ⟨-, hr⟩ | ⟨c, l, -, hc, hl, hr⟩
  · rw [hr]
    exact h
  · rw [hr]
    exact
      { h with
        zero_of_unbound := fun hn => by cases hc.symm.trans hn
        zero_of_unpinned := fun hn => by cases hl.symm.trans hn }

theorem calibrate (h : d.Coherent) (index : Nat)
    (change : Calibration → Except DeviceError Calibration) :
    (d.calibrate index change).2.Coherent := by
  rcases calibrate_cases d index change with ⟨e, hr⟩ | ⟨l, c, k, k', hl, -, -, -, hr⟩
  · rw [hr]
    exact h
  · rw [hr]
    exact
      { h with
        mapper_bound := fun e l' he hl' => by
          cases hl'
          exact h.mapper_bound e l he hl
        pinned_of_acquired := fun _ => ⟨_, rfl⟩
        recorded_iff := by simpa [hl] using h.recorded_iff
        mapper_recorded := fun l' r hl' hr => by
          cases hl'
          exact h.mapper_recorded l r hl hr
        zero_of_unpinned := fun hn => by cases hn }

theorem step {d' : Device} (hs : Step d d') (h : d.Coherent) : d'.Coherent := by
  cases hs with
  | unbind => exact h.unbind
  | bind c hc => exact h.bind hc
  | store s hb => exact h.store s hb
  | pin => exact h.pin
  | acquire handle => exact h.acquire handle
  | unacquire => exact h.unacquire
  | read => exact h.read _ _
  | setDeadzone index points => exact h.calibrate index _
  | setSaturation index points => exact h.calibrate index _
  | reset => exact .fresh

end Coherent
end Device

namespace Session

/-- Whatever the receiver and the framework do, and in whatever order, the device is coherent. -/
theorem coherent_after (n : Network) (es : List Event) :
    ((fresh n).after es).device.Coherent :=
  device_after_fresh .fresh .step n es

end Session
end VirtualPad
