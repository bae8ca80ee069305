import Mathlib.Tactic.SplitIfs
import VirtualPad.Device.Calls
import VirtualPad.Device.Read

/-!
# What a call does

The cases of each call on the device. A call that fails leaves the device as it was, but for an
acquisition without a controller, which lets it go.
-/
namespace VirtualPad

inductive DeviceError.Uncalibrated (index : Nat) : DeviceError → Prop
  | notEnumerated : Uncalibrated index .notEnumerated
  | noControl : Uncalibrated index (.noControl index)
  | notCalibrated (name : String) : Uncalibrated index (.notCalibrated name)

namespace Device

variable {d : Device} {c : Controller}

theorem pin_unbound (hc : d.controller? = none) : d.pin = (.error .notPresent, d) := by
  simp only [pin, hc]

theorem pin_again (hc : d.controller? = some c) (hp : d.pinned? = some c.mapper) :
    d.pin = (.ok (.ofController c), { d with record? := some (.ofController c) }) := by
  simp only [pinned?] at hp
  simp only [pin, hc, pinned?, hp, if_true]

theorem pin_first (hc : d.controller? = some c) (hp : d.pinned? ≠ some c.mapper) :
    d.pin = (.ok (.ofController c),
      { d with
        record? := some (.ofController c)
        layout? := some (.ofMapper c.mapper)
        published := .zero }) := by
  simp only [pinned?] at hp
  simp only [pin, hc, pinned?, hp, if_false]

theorem unbound_of_pin (h : d.pin.1.isOk = false) : d.controller? = none := by
  cases hc : d.controller? with
  | none => rfl
  | some c =>
    by_cases hp : d.pinned? = some c.mapper
    · rw [pin_again hc hp] at h
      cases h
    · rw [pin_first hc hp] at h
      cases h

theorem acquire_unbound (hc : d.controller? = none) (h : Handle) :
    d.acquire h = (.error .unplugged, d.unacquire) := by
  simp [acquire, isBound, hc]

theorem acquire_unpinned (hc : d.controller? = some c) (hl : d.layout? = none) (h : Handle) :
    d.acquire h = (.error .notEnumerated, d) := by
  simp [acquire, isBound, hc, hl]

theorem acquire_pinned {l : Layout} (hc : d.controller? = some c) (hl : d.layout? = some l)
    (h : Handle) : d.acquire h = (.ok (), { d with acquired := true, handle? := some h }) := by
  simp [acquire, isBound, hc, hl]

theorem calibrated_of_layout {l : Layout} (hl : d.layout? = some l) {index : Nat} {c : Control}
    (hc : l.controls[index]? = some c) {k : Calibration} (hk : c.calibration? = some k) :
    d.calibrated index = .ok (l, c, k) := by
  simp only [calibrated, hl, Layout.control?, hc, hk]

theorem calibrated_cases (d : Device) (index : Nat) :
    (∃ e : DeviceError, e.Uncalibrated index ∧ d.calibrated index = .error e) ∨
    ∃ l c k, d.layout? = some l ∧ l.controls[index]? = some c ∧ c.calibration? = some k ∧
      d.calibrated index = .ok (l, c, k) := by
  simp only [calibrated, Layout.control?]
  cases d.layout? with
  | none => exact .inl ⟨_, .notEnumerated, rfl⟩
  | some l =>
    dsimp only
    cases hc : l.controls[index]? with
    | none => exact .inl ⟨_, .noControl, rfl⟩
    | some c =>
      dsimp only
      cases hk : c.calibration? with
      | none => exact .inl ⟨_, .notCalibrated c.name, rfl⟩
      | some k => exact .inr ⟨l, c, k, rfl, hc, hk, rfl⟩

theorem calibrate_cases (d : Device) (index : Nat)
    (change : Calibration → Except DeviceError Calibration) :
    (∃ e, d.calibrate index change = (.error e, d)) ∨
    ∃ l c k k', d.layout? = some l ∧ l.controls[index]? = some c ∧ c.calibration? = some k ∧
      change k = .ok k' ∧
      d.calibrate index change = (.ok (),
        { d with
          layout? := some
            ⟨l.mapper, l.controls.set index { c with calibration? := some k' }⟩ }) := by
  rcases d.calibrated_cases index with ⟨e, -, hr⟩ | ⟨l, c, k, hl, hc, hk, hr⟩ <;>
    simp only [calibrate, hr]
  · exact .inl ⟨e, rfl⟩
  · cases hk' : change k with
    | error e => exact .inl ⟨e, rfl⟩
    | ok k' => exact .inr ⟨l, c, k, k', hl, hc, hk, hk', rfl⟩

variable {β κ : Type} [StateSink β] [EventSink κ]

theorem read_acquired {l : Layout} (ha : d.acquired = true) (hc : d.controller? = some c)
    (hl : d.layout? = some l) (buffer : β) (queue : κ) :
    d.read buffer queue = d.readLayout l buffer queue := by
  simp [read, isBound, ha, hc, hl]

theorem read_cases (d : Device) (buffer : β) (queue : κ) :
    ((d.read buffer queue).outcome = .idle ∨ (d.read buffer queue).outcome = .inputLost) ∧
        d.read buffer queue = ⟨(d.read buffer queue).outcome, d, buffer, queue, none⟩ ∨
    ∃ c l, d.acquired = true ∧ d.controller? = some c ∧ d.layout? = some l ∧
      d.read buffer queue = d.readLayout l buffer queue := by
  cases ha : d.acquired with
  | false => simp [read, ha]
  | true =>
    cases hc : d.controller? with
    | none => simp [read, isBound, ha, hc]
    | some c =>
      cases hl : d.layout? with
      | none => simp [read, isBound, ha, hc, hl]
      | some l => exact .inr ⟨c, l, rfl, rfl, rfl, read_acquired ha hc hl buffer queue⟩

end Device
end VirtualPad
