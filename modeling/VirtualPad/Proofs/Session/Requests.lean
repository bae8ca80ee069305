import VirtualPad.Proofs.Layout.Adjusted
import VirtualPad.Proofs.Session.Turn
import VirtualPad.Proofs.Transport.Shutdown

/-!
# Requests that are refused

The framework asks for a controller, for the device itself, for what was handed out and for other
calibrations. A request that is refused has done nothing, with two exceptions: who asks for a device
without a controller loses it, and who waits for a controller in vain has heard what came in.
-/
namespace VirtualPad
open Calibration (Adjustment)

namespace Device

variable {d : Device}

theorem acquire_error {h : Handle} {e : DeviceError} {d' : Device}
    (hr : d.acquire h = (.error e, d')) :
    e = .unplugged ∧ d' = d.unacquire ∨ e = .notEnumerated ∧ d' = d := by
  simp only [acquire] at hr
  split_ifs at hr <;> cases hr
  · exact .inl ⟨rfl, rfl⟩
  · exact .inr ⟨rfl, rfl⟩

theorem property_error {p : DeviceRecord.Property} {e : DeviceError}
    (hr : d.property p = .error e) : e = .notEnumerated := by
  cases hrecord : d.record? with
  | none =>
    simp only [property, hrecord] at hr
    cases hr
    rfl
  | some record =>
    simp only [property, hrecord] at hr
    split at hr <;> cases hr

theorem visit_error {σ : Type} {scope : Control.Scope} {mask : Control.Mask}
    {visitor : Control → σ → σ × Flow} {seen : σ} {e : DeviceError}
    (hr : d.visit scope mask visitor seen = .error e) : d.layout? = none ∧ e = .notEnumerated := by
  cases hl : d.layout? with
  | none =>
    simp only [visit, hl] at hr
    cases hr
    exact ⟨rfl, rfl⟩
  | some l =>
    simp only [visit, hl] at hr
    cases hr

theorem calibration_error {index : Nat} {e : DeviceError} (hr : d.calibration index = .error e) :
    e.Uncalibrated index := by
  rcases d.calibrated_cases index with ⟨e', he, h⟩ | ⟨l, c, k, -, -, -, h⟩ <;>
    rw [calibration, h] at hr <;> cases hr
  exact he

def adjust (d : Device) (index : Nat) : Adjustment → Except DeviceError Unit × Device
  | .deadzone points => d.setDeadzone index points
  | .saturation points => d.setSaturation index points

theorem Tuned.adjust_of_calibrated (h : d.Tuned) {index : Nat} {l : Layout} {c : Control}
    {k : Calibration} (hl : d.layout? = some l) (hc : l.controls[index]? = some c)
    (hk : c.calibration? = some k) (a : Adjustment) :
    d.adjust index a = (.ok (), { d with layout? := some { l with
      controls := l.controls.set index { c with calibration? := some (k.adjust a) } } }) := by
  have hr := calibrated_of_layout hl hc hk
  cases a with
  | deadzone points => simp only [adjust, setDeadzone, Device.calibrate, hr, Calibration.adjust]
  | saturation points =>
    obtain ⟨b, -, hb⟩ := (h l hl).exists_base (List.mem_of_getElem? hc)
    simp only [adjust, setSaturation, Device.calibrate, hr, Calibration.adjust,
      (hb.tuned hk).setSaturation?_eq, Option.getD_some]

theorem adjust_of_error {index : Nat} {e : DeviceError} (h : d.calibrated index = .error e)
    (a : Adjustment) : d.adjust index a = (.error e, d) := by
  cases a <;> simp only [adjust, setDeadzone, setSaturation, calibrate, h]

end Device

namespace Session

theorem device_hearOffers {s : Session} {offers : List (List UInt8)}
    (h : (s.hearOffers offers).device.controller? = none) :
    (s.hearOffers offers).device = s.device.hearAll (offers.map (·.take Datagram.controlSize)) := by
  induction offers generalizing s with
  | nil => rfl
  | cons bytes rest ih =>
    simp only [hearOffers] at h ⊢
    split_ifs at h ⊢ with hb
    · simp [Device.isBound, h] at hb
    · rw [ih h, device_accept]
      rfl

def awaited (s : Session) (offers : List (List UInt8)) : List (List UInt8) :=
  if !s.listening && s.network.portTaken then []
  else (s.network.through offers).map (·.take Datagram.controlSize)

inductive Request (σ : Type) where
  | enumerate (offers : List (List UInt8))
  | pin
  | acquire (h : Handle)
  | property (p : DeviceRecord.Property)
  | visit (scope : Control.Scope) (mask : Control.Mask) (visitor : Control → σ → σ × Flow)
      (seen : σ)
  | calibration (index : Nat)
  | adjust (index : Nat) (a : Adjustment)

inductive Answer (σ : Type) where
  | done
  | record (r : DeviceRecord)
  | value (v : DeviceRecord.PropertyValue)
  | visited (seen : σ) (flow : Flow)
  | calibration (k : Calibration)

def adjust (s : Session) (index : Nat) : Adjustment → Except DeviceError Unit × Session
  | .deadzone points => s.setDeadzone index points
  | .saturation points => s.setSaturation index points

variable {σ : Type}

def serve (s : Session) : Request σ → Except DeviceError (Answer σ) × Session
  | .enumerate offers =>
    let (result, t) := s.enumerate offers
    (result.map .record, t)
  | .pin =>
    let (result, t) := s.pin
    (result.map .record, t)
  | .acquire h =>
    let (result, t) := s.acquire h
    (result.map fun _ => .done, t)
  | .property p => ((s.device.property p).map .value, s)
  | .visit scope mask visitor seen =>
    ((s.device.visit scope mask visitor seen).map fun (seen, flow) => .visited seen flow, s)
  | .calibration index => ((s.device.calibration index).map .calibration, s)
  | .adjust index a =>
    let (result, t) := s.adjust index a
    (result.map fun _ => .done, t)

inductive Refused (s : Session) : Request σ → DeviceError → Session → Prop
  | acquired (offers : List (List UInt8)) : Refused s (.enumerate offers) .alreadyAcquired s
  | unoffered (offers : List (List UInt8)) {t : Session}
      (h : t.device = s.device.hearAll (s.awaited offers)) :
      Refused s (.enumerate offers) .notPresent t
  | gone : Refused s .pin .notPresent s
  | unplugged (h : Handle) : Refused s (.acquire h) .unplugged s.unacquire
  | unpinned (h : Handle) : Refused s (.acquire h) .notEnumerated s
  | property (p : DeviceRecord.Property) : Refused s (.property p) .notEnumerated s
  | visit (scope : Control.Scope) (mask : Control.Mask) (visitor : Control → σ → σ × Flow)
      (seen : σ) : Refused s (.visit scope mask visitor seen) .notEnumerated s
  | calibration {index : Nat} {e : DeviceError} (he : e.Uncalibrated index) :
      Refused s (.calibration index) e s
  | adjust {index : Nat} {e : DeviceError} (he : e.Uncalibrated index) (a : Adjustment) :
      Refused s (.adjust index a) e s

variable {s t : Session} {e : DeviceError}

theorem pin_error (hr : s.pin = (.error e, t)) :
    s.device.controller? = none ∧ e = .notPresent ∧ t = s := by
  have hc := Device.unbound_of_pin (d := s.device) (congrArg (·.1.isOk) hr)
  rw [pin, Device.pin_unbound hc] at hr
  cases hr
  exact ⟨hc, rfl, rfl⟩

theorem enumerate_error {offers : List (List UInt8)} (hr : s.enumerate offers = (.error e, t)) :
    e = .alreadyAcquired ∧ t = s ∨
      e = .notPresent ∧ t.device = s.device.hearAll (s.awaited offers) := by
  simp only [enumerate] at hr
  split_ifs at hr with ha hp
  · cases hr
    exact .inl ⟨rfl, rfl⟩
  · cases hr
    rw [awaited, if_pos hp]
    exact .inr ⟨rfl, rfl⟩
  · obtain ⟨hc, rfl, rfl⟩ := pin_error hr
    rw [awaited, if_neg hp, device_hearOffers hc]
    exact .inr ⟨rfl, rfl⟩

theorem acquire_error {h : Handle} (hr : s.acquire h = (.error e, t)) :
    e = .unplugged ∧ t = s.unacquire ∨ e = .notEnumerated ∧ t = s := by
  obtain ⟨hresult, rfl⟩ := Prod.ext_iff.1 hr
  rcases Device.acquire_error (Prod.ext hresult rfl) with ⟨he, hd⟩ | ⟨he, hd⟩
  · exact .inl ⟨he, congrArg s.withDevice hd⟩
  · exact .inr ⟨he, congrArg s.withDevice hd⟩

theorem adjust_eq (s : Session) (index : Nat) (a : Adjustment) :
    s.adjust index a =
      ((s.device.adjust index a).1, s.withDevice (s.device.adjust index a).2) := by
  cases a <;> rfl

theorem adjust_cases (hd : s.device.Tuned) (index : Nat) (a : Adjustment) :
    (∃ e : DeviceError, e.Uncalibrated index ∧ s.device.calibrated index = .error e ∧
      s.adjust index a = (.error e, s)) ∨
    ∃ l c k, s.device.layout? = some l ∧ l.controls[index]? = some c ∧ c.calibration? = some k ∧
      s.adjust index a = (.ok (), s.withDevice { s.device with layout? := some { l with
        controls := l.controls.set index { c with calibration? := some (k.adjust a) } } }) := by
  rcases s.device.calibrated_cases index with ⟨e, he, h⟩ | ⟨l, c, k, hl, hc, hk, -⟩
  · refine .inl ⟨e, he, h, ?_⟩
    rw [adjust_eq, Device.adjust_of_error h]
    rfl
  · refine .inr ⟨l, c, k, hl, hc, hk, ?_⟩
    rw [adjust_eq, hd.adjust_of_calibrated hl hc hk]

theorem error_of_map {α β : Type} {result : Except DeviceError α} {f : α → β} {t' : Session}
    (h : (result.map f, t') = (.error e, t)) : (result, t') = (.error e, t) := by
  cases result <;> cases h
  rfl

theorem serve_error (hd : s.device.Tuned) {r : Request σ} (hr : s.serve r = (.error e, t)) :
    s.Refused r e t := by
  cases r with
  | enumerate offers =>
    rcases enumerate_error (error_of_map hr) with ⟨rfl, rfl⟩ | ⟨rfl, h⟩
    · exact .acquired offers
    · exact .unoffered offers h
  | pin =>
    obtain ⟨-, rfl, rfl⟩ := pin_error (error_of_map hr)
    exact .gone
  | acquire h =>
    rcases acquire_error (error_of_map hr) with ⟨rfl, rfl⟩ | ⟨rfl, rfl⟩
    · exact .unplugged h
    · exact .unpinned h
  | property p =>
    obtain ⟨hresult, rfl⟩ := Prod.ext_iff.1 (error_of_map hr)
    obtain rfl := Device.property_error hresult
    exact .property p
  | visit scope mask visitor seen =>
    obtain ⟨hresult, rfl⟩ := Prod.ext_iff.1 (error_of_map hr)
    obtain ⟨-, rfl⟩ := Device.visit_error hresult
    exact .visit scope mask visitor seen
  | calibration index =>
    obtain ⟨hresult, rfl⟩ := Prod.ext_iff.1 (error_of_map hr)
    exact .calibration (Device.calibration_error hresult)
  | adjust index a =>
    have hr : s.adjust index a = (.error e, t) := error_of_map hr
    rcases adjust_cases hd index a with ⟨e', he, -, h⟩ | ⟨l, c, k, -, -, -, h⟩ <;> rw [h] at hr <;>
      cases hr
    exact .adjust he a

theorem adjust_eq_ok_iff (hd : s.device.Tuned) (index : Nat) (a : Adjustment) :
    (s.adjust index a).1 = .ok () ↔
      ∃ l c, s.device.layout? = some l ∧ l.controls[index]? = some c ∧
        (c.category = .axis ∨ c.category = .pov) := by
  rcases adjust_cases hd index a with ⟨e, -, he, hr⟩ | ⟨l, c, k, hl, hc, hk, hr⟩ <;> rw [hr]
  · refine ⟨nofun, ?_⟩
    rintro ⟨l, c, hl, hc, hcategory⟩
    obtain ⟨k, hk⟩ := ((hd l hl).calibrated_iff (List.mem_of_getElem? hc)).2 hcategory
    cases he.symm.trans (Device.calibrated_of_layout hl hc hk)
  · have hcategory := ((hd l hl).calibrated_iff (List.mem_of_getElem? hc)).1 ⟨k, hk⟩
    exact ⟨fun _ => ⟨l, c, hl, hc, hcategory⟩, fun _ => rfl⟩

/-- In every state that a run reaches. A request that is refused leaves the session as it was, but
for the acquisition of a device without a controller, which lets the device go and does nothing
else, and for an enumeration that finds no controller, which has heard what came in while it waited.
A visitor is not asked where there is nothing to visit. The setters work exactly on the axes and on
the POV of a layout handed out, and change nothing but the deadzone and the saturation there. -/
theorem requests_all_or_nothing (σ : Type) (n : Network) (es : List Event) :
    let s := (fresh n).after es
    (∀ (r : Request σ) e t, s.serve r = (.error e, t) → s.Refused r e t) ∧
    s.unacquire = s.withDevice { s.device with acquired := false, handle? := none } ∧
    (∀ scope mask (visitor : Control → σ → σ × Flow) seen e,
      s.device.visit scope mask visitor seen = .error e →
        ∀ {τ : Type} (visitor' : Control → τ → τ × Flow) seen',
          s.device.visit scope mask visitor' seen' = .error e) ∧
    ∀ index a,
      ((s.adjust index a).1 = .ok () ↔
        ∃ l c, s.device.layout? = some l ∧ l.controls[index]? = some c ∧
          (c.category = .axis ∨ c.category = .pov)) ∧
      ∀ t, s.adjust index a = (.ok (), t) →
        ∃ l c k, s.device.layout? = some l ∧ l.controls[index]? = some c ∧
          c.calibration? = some k ∧
          t = s.withDevice { s.device with layout? := some { l with
            controls := l.controls.set index { c with calibration? := some (k.adjust a) } } } ∧
          k.adjust a = { k with
            deadzone := (k.adjust a).deadzone
            saturation := (k.adjust a).saturation } := by
  intro s
  have hd : s.device.Tuned := tuned_after n es
  refine ⟨fun r e t => serve_error hd, rfl, ?_, fun index a => ⟨adjust_eq_ok_iff hd index a, ?_⟩⟩
  · intro scope mask visitor seen e hr τ visitor' seen'
    obtain ⟨hl, rfl⟩ := Device.visit_error hr
    simp only [Device.visit, hl]
  · intro t ht
    rcases adjust_cases hd index a with ⟨e, -, -, hr⟩ | ⟨l, c, k, hl, hc, hk, hr⟩
    · cases hr.symm.trans ht
    · obtain rfl := congrArg Prod.snd (hr.symm.trans ht)
      exact ⟨l, c, k, hl, hc, hk, rfl, k.adjust_eq a⟩

def lost : List Event :=
  [.dispatch (Datagram.encodeOffer (some ⟨1, .standard, "one"⟩)), .enumerate [], .acquire 7,
    .dispatch Datagram.encodeRelease]

theorem requests_all_or_nothing_lost :
    let s := (fresh .standard).after lost
    let count : Control → Nat → Nat × Flow := fun _ seen => (seen + 1, .proceed)
    s.device.handle? = some 7 ∧
    s.Refused (.acquire 9 : Request Nat) .unplugged s.unacquire ∧
    s.unacquire = s.withDevice { s.device with acquired := false, handle? := none } ∧
    s.Refused (.enumerate [] : Request Nat) .alreadyAcquired s ∧
    (fresh .standard).device.visit .all .all count 0 = .error .notEnumerated ∧
    (s.adjust 5 (.deadzone 2500)).1 ≠ .ok () ∧
    ∃ l c k, s.device.layout? = some l ∧ l.controls[4]? = some c ∧ c.calibration? = some k ∧
      (s.adjust 4 (.deadzone 2500)).2 = s.withDevice { s.device with layout? := some { l with
        controls := l.controls.set 4 { c with calibration? := some (k.setDeadzone 2500) } } } := by
  intro s count
  have hc : s.device.controller? = none := by decide +kernel
  have hl : s.device.layout? = some (.ofMapper .standard) := by decide +kernel
  have ha : s.device.acquired = true := by decide +kernel
  have hlost : s.serve (.acquire 9 : Request Nat) = (.error .unplugged, s.unacquire) := by
    simp only [serve, acquire, Device.acquire_unbound hc]
    rfl
  have hheld : s.serve (.enumerate [] : Request Nat) = (.error .alreadyAcquired, s) := by
    simp only [serve, enumerate, ha, if_true]
    rfl
  obtain ⟨hrefused, hlets, -, hsets⟩ := requests_all_or_nothing Nat .standard lost
  obtain ⟨-, -, hvisit, -⟩ := requests_all_or_nothing Unit .standard []
  have hpov := (hsets 4 (.deadzone 2500)).1.2 ⟨_, _, hl, rfl, .inr rfl⟩
  have hbutton : (s.adjust 5 (.deadzone 2500)).1 ≠ .ok () := by
    intro h
    obtain ⟨l, c, hl', hc', hcategory⟩ := (hsets 5 (.deadzone 2500)).1.1 h
    cases hl.symm.trans hl'
    cases hc'
    rcases hcategory with h | h <;> cases h
  obtain ⟨l, c, k, hl', hc', hk, ht, -⟩ := (hsets 4 (.deadzone 2500)).2 _ (Prod.ext hpov rfl)
  exact ⟨by decide +kernel, hrefused _ _ _ hlost, hlets, hrefused _ _ _ hheld,
    hvisit .all .all (fun _ _ => ((), .stop)) () _ rfl count 0, hbutton,
    l, c, k, hl', hc', hk, ht⟩

end Session
end VirtualPad
