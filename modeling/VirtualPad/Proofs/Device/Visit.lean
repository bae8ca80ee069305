import VirtualPad.Proofs.Device.Tuned
import VirtualPad.Proofs.Layout.Visit

/-!
# Visits of a device

The controls of a device are visited as its layout has them when it is handed out. Calibrations may
have changed since; whom they do not concern sees the same controls as ever.
-/
namespace VirtualPad
open Layout (Seen recording shownTo IgnoresCalibration seen_of_proceed)

namespace Device

variable {σ : Type} {visitor : Control → σ → σ × Flow} {d : Device}

theorem visit_of_layout {l : Layout} (hl : d.layout? = some l) (scope : Control.Scope)
    (mask : Control.Mask) (visitor : Control → σ → σ × Flow) (s : σ) :
    d.visit scope mask visitor s = .ok (l.visit scope mask visitor s) := by
  simp only [visit, hl]

theorem visit_of_none (hl : d.layout? = none) (scope : Control.Scope) (mask : Control.Mask)
    (visitor : Control → σ → σ × Flow) (s : σ) :
    d.visit scope mask visitor s = .error .notEnumerated := by
  simp only [visit, hl]

/-- Changes of calibrations, one after the other. Those that are refused change nothing. -/
def calibrateAll (d : Device)
    (changes : List (Nat × (Calibration → Except DeviceError Calibration))) : Device :=
  changes.foldl (fun d change => (d.calibrate change.1 change.2).2) d

def SameControls (d d' : Device) : Prop :=
  d'.layout?.map (·.controls.map Control.bare) = d.layout?.map (·.controls.map Control.bare)

theorem calibrate_sameControls (d : Device) (index : Nat)
    (change : Calibration → Except DeviceError Calibration) :
    d.SameControls (d.calibrate index change).2 := by
  rcases calibrate_cases d index change with ⟨e, hr⟩ | ⟨l, c, k, k', hl, hi, -, -, hr⟩ <;> rw [hr]
  · rfl
  · simp only [SameControls, hl, Option.map_some, Layout.map_bare_set hi]

theorem calibrateAll_sameControls (d : Device)
    (changes : List (Nat × (Calibration → Except DeviceError Calibration))) :
    d.SameControls (d.calibrateAll changes) := by
  induction changes generalizing d with
  | nil => rfl
  | cons change changes ih =>
    exact (ih (d.calibrate change.1 change.2).2).trans (d.calibrate_sameControls _ _)

theorem SameControls.cases {d' : Device} (h : d.SameControls d') :
    d.layout? = none ∧ d'.layout? = none ∨
    ∃ l l', d.layout? = some l ∧ d'.layout? = some l' ∧
      l'.controls.map Control.bare = l.controls.map Control.bare := by
  rw [SameControls] at h
  cases hl : d.layout? with
  | none =>
    rw [hl, Option.map_none, Option.map_eq_none_iff] at h
    exact .inl ⟨rfl, h⟩
  | some l =>
    rw [hl, Option.map_some, Option.map_eq_some_iff] at h
    obtain ⟨l', hl', hbare⟩ := h
    exact .inr ⟨l, l', rfl, hl', hbare⟩

theorem SameControls.visit_eq {d' : Device} (h : d.SameControls d')
    (hv : IgnoresCalibration visitor) (scope : Control.Scope) (mask : Control.Mask) (s : σ) :
    d'.visit scope mask visitor s = d.visit scope mask visitor s := by
  rcases h.cases with ⟨hl, hl'⟩ | ⟨l, l', hl, hl', hbare⟩
  · rw [visit_of_none hl, visit_of_none hl']
  · rw [visit_of_layout hl, visit_of_layout hl', Layout.visit_congr hbare hv]

def shows (d : Device) (scope : Control.Scope) (mask : Control.Mask)
    (visitor : Control → σ → σ × Flow) (s : σ) : Except DeviceError (List Control) :=
  (d.visit scope mask (recording visitor) ([], s)).map fun r => r.1.1.map Control.bare

theorem SameControls.shows_eq {d' : Device} (h : d.SameControls d')
    (hgo : ∀ c s, (visitor c s).2 = .proceed) (scope : Control.Scope) (mask : Control.Mask) (s : σ) :
    d'.shows scope mask visitor s = d.shows scope mask visitor s := by
  rcases h.cases with ⟨hl, hl'⟩ | ⟨l, l', hl, hl', hbare⟩
  · rw [shows, shows, visit_of_none hl, visit_of_none hl']
  · rw [shows, shows, visit_of_layout hl, visit_of_layout hl', Except.map, Except.map,
      seen_of_proceed hgo, seen_of_proceed hgo, Layout.map_bare_filter, Layout.map_bare_filter,
      hbare]

end Device

namespace Session

theorem visit_after {σ : Type} {visitor : Control → σ → σ × Flow}
    (hv : IgnoresCalibration visitor) (n : Network) (es : List Event) (scope : Control.Scope)
    (mask : Control.Mask) (s : σ) :
    let d := ((fresh n).after es).device
    d.visit scope mask visitor s =
      match d.pinned? with
      | none => .error .notEnumerated
      | some m => .ok ((Layout.ofMapper m).visit scope mask visitor s) := by
  dsimp only
  cases hl : ((fresh n).after es).device.layout? with
  | none => simp only [Device.visit_of_none hl, Device.pinned?, hl, Option.map_none]
  | some l =>
    have hbare := (tuned_after n es l hl).map_bare
    simp only [Device.visit_of_layout hl, Device.pinned?, hl, Option.map_some,
      Layout.visit_congr hbare hv]

end Session

namespace Layout

/-- Whatever the visitor. It is shown the controls that are of the categories and in the scope asked
for, in their order, until it stops; what it is at the end and how the visit ends is its own doing. Where
it never stops, two masks together show what either shows, once and in order. Changes of calibrations
are not seen, unless the visitor looks for them and stops. -/
theorem visit_shows_selected {σ : Type} (visitor : Control → σ → σ × Flow) (s : σ)
    (scope : Control.Scope) :
    (∀ (l : Layout) mask,
      let r := l.visit scope mask (recording visitor) ([], s)
      Seen visitor s (l.controls.filter fun c => mask.contains c.category && scope.contains c)
        r.1.1 r.2 ∧
      l.visit scope mask visitor s = (r.1.2, r.2) ∧
      (r.2 = .stop ↔ ∃ before c after, r.1.1 = before ++ c :: after ∧
        (visitor c (shownTo visitor s before)).2 = .stop)) ∧
    ((∀ c s, (visitor c s).2 = .proceed) → ∀ (l : Layout) (m n : Control.Mask),
      let seen := fun mask => (l.visit scope mask (recording visitor) ([], s)).1.1
      (seen (m.union n)).filter (m.contains ·.category) = seen m ∧
      (seen (m.union n)).filter (n.contains ·.category) = seen n ∧
      ∀ c, (seen (m.union n)).count c = max ((seen m).count c) ((seen n).count c)) ∧
    ((∀ c s, (visitor c s).2 = .proceed) → ∀ (d : Device) mask changes,
      (d.calibrateAll changes).shows scope mask visitor s = d.shows scope mask visitor s) ∧
    (IgnoresCalibration visitor → ∀ (d : Device) mask changes,
      (d.calibrateAll changes).visit scope mask visitor s = d.visit scope mask visitor s) ∧
    (IgnoresCalibration visitor → ∀ n es mask,
      let d := ((Session.fresh n).after es).device
      d.visit scope mask visitor s =
        match d.pinned? with
        | none => .error .notEnumerated
        | some m => .ok ((ofMapper m).visit scope mask visitor s)) := by
  refine ⟨?_, ?_, ?_, ?_, ?_⟩
  · intro l mask
    obtain ⟨hseen, hvisit⟩ := l.visit_recording scope mask visitor s
    exact ⟨hseen, hvisit, hseen.eq_stop_iff⟩
  · intro hgo l m n
    simp only [seen_of_proceed hgo]
    refine ⟨filter_selects_union scope m n l.controls, ?_, fun c => ?_⟩
    · rw [union_comm]
      exact filter_selects_union scope n m l.controls
    · exact count_selects_union scope m n l.controls c
  · intro hgo d mask changes
    exact (d.calibrateAll_sameControls changes).shows_eq hgo scope mask s
  · intro hv d mask changes
    exact (d.calibrateAll_sameControls changes).visit_eq hv scope mask s
  · intro hv n es mask
    exact Session.visit_after hv n es scope mask s

def listing : Control → List Nat → List Nat × Flow :=
  fun c seen => (seen ++ [c.index], .proceed)

def doubled : Layout where
  mapper := .standard
  controls :=
    [.ofAxis 0 0 .x (.stick .leftX), .ofButton 1 3 0, .ofAxis 0 0 .x (.stick .leftX), .ofPov 3]

theorem visit_shows_selected_doubled :
    (∀ c s, (listing c s).2 = .proceed) ∧ IgnoresCalibration listing ∧
    let seen := fun mask => (doubled.visit .all mask (recording listing) ([], [])).1.1
    let both := Control.Mask.axesOnly.union .buttonsOnly
    (seen both).map (·.index) = [0, 1, 0] ∧
    (seen both).filter (Control.Mask.axesOnly.contains ·.category) = seen .axesOnly ∧
    (∀ c, (seen both).count c = max ((seen .axesOnly).count c) ((seen .buttonsOnly).count c)) ∧
    let d := { Device.fresh with layout? := some doubled }
    let changes := [(0, fun k : Calibration => .ok (k.setDeadzone 5000)), (9, .ok)]
    d.calibrateAll changes ≠ d ∧
    (d.calibrateAll changes).visit .all .all listing [] = d.visit .all .all listing [] ∧
    (d.calibrateAll changes).shows .all both listing [] = d.shows .all both listing [] := by
  have hgo : ∀ c s, (listing c s).2 = .proceed := fun _ _ => rfl
  have hv : IgnoresCalibration listing := fun _ _ _ => rfl
  obtain ⟨-, hunion, hshows, hvisit, -⟩ := visit_shows_selected listing [] .all
  obtain ⟨haxes, -, hcount⟩ := hunion hgo doubled .axesOnly .buttonsOnly
  refine ⟨hgo, hv, by decide, haxes, hcount, ?_, hvisit hv _ _ _, hshows hgo _ _ _⟩
  decide +kernel

end Layout
end VirtualPad
