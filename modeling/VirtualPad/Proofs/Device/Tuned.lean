import VirtualPad.Proofs.Device.Calls
import VirtualPad.Proofs.Device.Step
import VirtualPad.Proofs.Layout.Tuned

/-!
# The layout that was handed out

Only enumeration and the setters of calibrations change the layout of a device. It is tuned after
every run, and the setters of a tuned layout are never refused a saturation.
-/
namespace VirtualPad
namespace Device

theorem layout_acquire (d : Device) (h : Handle) : (d.acquire h).2.layout? = d.layout? := by
  simp only [acquire]
  split_ifs <;> rfl

theorem layout_read (d : Device) :
    (d.read ([] : List (Control × Int32)) ([] : List ChangeEvent)).device.layout? = d.layout? := by
  rcases read_cases d ([] : List (Control × Int32)) ([] : List ChangeEvent) with
    ⟨-, hr⟩ | ⟨c, l, -, -, -, hr⟩ <;> rw [hr]
  rfl

theorem layout_pin (d : Device) :
    d.pin.2.layout? = d.layout? ∨ ∃ m, d.pin.2.layout? = some (.ofMapper m) := by
  cases hc : d.controller? with
  | none =>
    rw [pin_unbound hc]
    exact .inl rfl
  | some c =>
    by_cases hp : d.pinned? = some c.mapper
    · rw [pin_again hc hp]
      exact .inl rfl
    · rw [pin_first hc hp]
      exact .inr ⟨_, rfl⟩

def Tuned (d : Device) : Prop :=
  ∀ l, d.layout? = some l → (Layout.ofMapper l.mapper).TunedFrom l

namespace Tuned

variable {d : Device}

theorem fresh : Tuned .fresh := nofun

theorem of_eq {d' : Device} (h : d.Tuned) (he : d'.layout? = d.layout?) : d'.Tuned := by
  intro l hl
  rw [he] at hl
  exact h l hl

theorem pin (h : d.Tuned) : d.pin.2.Tuned := by
  rcases layout_pin d with he | ⟨m, he⟩
  · exact h.of_eq he
  · intro l hl
    rw [he] at hl
    cases hl
    rw [Layout.mapper_ofMapper]
    exact Layout.tunedFrom_ofMapper m

theorem calibrate (h : d.Tuned) (index : Nat)
    {change : Calibration → Except DeviceError Calibration}
    (hchange : ∀ b k k', Calibration.TunedFrom b k → change k = .ok k' →
      Calibration.TunedFrom b k') : (d.calibrate index change).2.Tuned := by
  rcases calibrate_cases d index change with ⟨e, hr⟩ | ⟨l, c, k, k', hl, hi, hc, hk, hr⟩
  · rw [hr]
    exact h
  · rw [hr]
    intro l' hl'
    cases hl'
    exact (h l hl).retune hi hc fun b hb => hchange b k k' hb hk

theorem step {d' : Device} (hs : Step d d') (h : d.Tuned) : d'.Tuned := by
  cases hs with
  | unbind => exact h.of_eq rfl
  | bind c => exact h.of_eq (layout_bind d c)
  | store s => exact h.of_eq rfl
  | pin => exact h.pin
  | acquire handle => exact h.of_eq (layout_acquire d handle)
  | unacquire => exact h.of_eq rfl
  | read => exact h.of_eq (layout_read d)
  | setDeadzone index points =>
    apply h.calibrate
    intro b k k' hb hk
    cases hk
    exact hb.setDeadzone points
  | setSaturation index points =>
    apply h.calibrate
    intro b k k' hb hk
    rw [hb.setSaturation?_eq] at hk
    cases hk
    exact hb.setSaturation (hb.setSaturation?_eq points)
  | reset => exact fresh

/-- A saturation may be refused for its index, but never for the deadzone it must not enter. -/
theorem setSaturation_ne (h : d.Tuned) (index : Nat) (points : Int32) :
    (d.setSaturation index points).1 ≠ .error .deadzoneOutOfRange := by
  simp only [setSaturation, Device.calibrate]
  rcases d.calibrated_cases index with ⟨e, he, hr⟩ | ⟨l, c, k, hl, hi, hk, hr⟩ <;> rw [hr]
  · cases he <;> simp
  · obtain ⟨b, -, hb⟩ := (h l hl).exists_base (List.mem_of_getElem? hi)
    simp [(hb.tuned hk).setSaturation?_eq points]

end Tuned
end Device

namespace Session

theorem tuned_after (n : Network) (es : List Event) : ((fresh n).after es).device.Tuned :=
  device_after_fresh .fresh .step n es

end Session
end VirtualPad
