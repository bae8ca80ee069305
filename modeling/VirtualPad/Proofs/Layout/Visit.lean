import Mathlib.Data.List.Basic
import Mathlib.Tactic.SplitIfs
import VirtualPad.Layout.Visit
import VirtualPad.Proofs.Layout.Tuned

/-!
# What a visitor sees

A visitor that keeps a record of what it is shown does otherwise what it did without. The record holds
the controls that are selected, in their order, up to the first one at which the visitor stops.
-/
namespace VirtualPad

def Control.bare (c : Control) : Control := { c with calibration? := none }

namespace Layout

section
variable {σ : Type} (visitor : Control → σ → σ × Flow)

def shownTo (s : σ) (controls : List Control) : σ :=
  controls.foldl (fun s c => (visitor c s).1) s

def Proceeds (s : σ) (controls : List Control) : Prop :=
  ∀ before c after, controls = before ++ c :: after →
    (visitor c (shownTo visitor s before)).2 = .proceed

/-- Of the controls that are there to be seen these have been, and the visit ends so. -/
inductive Seen (s : σ) : List Control → List Control → Flow → Prop
  | all {controls : List Control} (h : Proceeds visitor s controls) :
      Seen s controls controls .proceed
  | upTo {before after : List Control} {c : Control} (h : Proceeds visitor s before)
      (hstop : (visitor c (shownTo visitor s before)).2 = .stop) :
      Seen s (before ++ c :: after) (before ++ [c]) .stop

def recording : Control → List Control × σ → (List Control × σ) × Flow :=
  fun c seen => ((seen.1 ++ [c], (visitor c seen.2).1), (visitor c seen.2).2)

def IgnoresCalibration : Prop :=
  ∀ (c : Control) calibration? s, visitor { c with calibration? } s = visitor c s

variable {visitor} {s : σ} {c : Control} {controls seen : List Control} {flow : Flow}

theorem Proceeds.cons (hc : (visitor c s).2 = .proceed)
    (h : Proceeds visitor (visitor c s).1 controls) : Proceeds visitor s (c :: controls) := by
  intro before d after heq
  cases before with
  | nil =>
    cases heq
    exact hc
  | cons b before =>
    cases heq
    exact h before d after rfl

theorem Seen.cons (hc : (visitor c s).2 = .proceed)
    (h : Seen visitor (visitor c s).1 controls seen flow) :
    Seen visitor s (c :: controls) (c :: seen) flow := by
  cases h with
  | all h => exact .all (h.cons hc)
  | upTo h hstop => exact .upTo (h.cons hc) hstop

theorem Seen.eq_stop_iff (h : Seen visitor s controls seen flow) :
    flow = .stop ↔ ∃ before c after, seen = before ++ c :: after ∧
      (visitor c (shownTo visitor s before)).2 = .stop := by
  cases h with
  | all h =>
    constructor
    · intro hflow
      cases hflow
    · rintro ⟨before, c, after, hseen, hstop⟩
      cases (h before c after hseen).symm.trans hstop
  | upTo h hstop => exact ⟨fun _ => ⟨_, _, [], rfl, hstop⟩, fun _ => rfl⟩

theorem Seen.eq_of_proceed (h : Seen visitor s controls seen flow)
    (hgo : ∀ c s, (visitor c s).2 = .proceed) : seen = controls ∧ flow = .proceed := by
  cases h with
  | all h => exact ⟨rfl, rfl⟩
  | upTo h hstop => cases (hgo _ _).symm.trans hstop

/-! ## Visits -/

theorem visitControls_filter (selected : Control → Bool) (controls : List Control) (s : σ) :
    visitControls selected visitor controls s =
      visitControls (fun _ => true) visitor (controls.filter selected) s := by
  induction controls generalizing s with
  | nil => rfl
  | cons c controls ih =>
    cases hc : selected c with
    | true =>
      rw [List.filter_cons_of_pos hc, visitControls, if_pos hc, visitControls, if_pos rfl]
      split
      · rfl
      · exact ih _
    | false =>
      rw [List.filter_cons_of_neg (by simp [hc]), visitControls, if_neg (by simp [hc])]
      exact ih s

theorem visitControls_stop (hc : (visitor c s).2 = .stop) (controls : List Control) :
    visitControls (fun _ => true) visitor (c :: controls) s = ((visitor c s).1, .stop) := by
  rw [visitControls, if_pos rfl]
  generalize visitor c s = r at hc ⊢
  obtain ⟨s', flow⟩ := r
  cases hc
  rfl

theorem visitControls_proceed (hc : (visitor c s).2 = .proceed) (controls : List Control) :
    visitControls (fun _ => true) visitor (c :: controls) s =
      visitControls (fun _ => true) visitor controls (visitor c s).1 := by
  rw [visitControls, if_pos rfl]
  generalize visitor c s = r at hc ⊢
  obtain ⟨s', flow⟩ := r
  cases hc
  rfl

theorem exists_seen (visitor : Control → σ → σ × Flow) (controls record : List Control) (s : σ) :
    ∃ seen flow, Seen visitor s controls seen flow ∧
      visitControls (fun _ => true) (recording visitor) controls (record, s) =
        ((record ++ seen, shownTo visitor s seen), flow) ∧
      visitControls (fun _ => true) visitor controls s = (shownTo visitor s seen, flow) := by
  induction controls generalizing record s with
  | nil =>
    refine ⟨[], .proceed, .all ?_, by rw [List.append_nil]; rfl, rfl⟩
    intro before c after heq
    simp at heq
  | cons c controls ih =>
    cases hc : (visitor c s).2 with
    | stop =>
      have hrecord : (recording visitor c (record, s)).2 = .stop := hc
      have hnone : Proceeds visitor s [] := by
        intro before d after heq
        simp at heq
      refine ⟨[c], .stop, .upTo hnone hc, ?_, visitControls_stop hc controls⟩
      rw [visitControls_stop hrecord]
      rfl
    | proceed =>
      have hrecord : (recording visitor c (record, s)).2 = .proceed := hc
      obtain ⟨seen, flow, hseen, hrec, hvisit⟩ := ih (record ++ [c]) (visitor c s).1
      refine ⟨c :: seen, flow, hseen.cons hc, ?_, ?_⟩
      · rw [visitControls_proceed hrecord, List.append_cons]
        exact hrec
      · rw [visitControls_proceed hc]
        exact hvisit

theorem visit_recording (l : Layout) (scope : Control.Scope) (mask : Control.Mask)
    (visitor : Control → σ → σ × Flow) (s : σ) :
    let r := l.visit scope mask (recording visitor) ([], s)
    Seen visitor s (l.controls.filter (selects scope mask)) r.1.1 r.2 ∧
      l.visit scope mask visitor s = (r.1.2, r.2) := by
  obtain ⟨seen, flow, hseen, hrec, hvisit⟩ :=
    exists_seen visitor (l.controls.filter (selects scope mask)) [] s
  rw [← visitControls_filter] at hrec hvisit
  simp only [visit, hrec, hvisit, List.nil_append, and_true]
  exact hseen

theorem seen_of_proceed (hgo : ∀ c s, (visitor c s).2 = .proceed) (l : Layout)
    (scope : Control.Scope) (mask : Control.Mask) (s : σ) :
    (l.visit scope mask (recording visitor) ([], s)).1.1 =
      l.controls.filter (selects scope mask) :=
  ((l.visit_recording scope mask visitor s).1.eq_of_proceed hgo).1

/-! ## Masks -/

theorem selects_union (scope : Control.Scope) (m n : Control.Mask) (c : Control) :
    selects scope (m.union n) c = (selects scope m c || selects scope n c) := by
  rw [selects, Control.Mask.contains_union, Bool.and_or_distrib_right, selects, selects]

theorem filter_selects_union (scope : Control.Scope) (m n : Control.Mask)
    (controls : List Control) :
    (controls.filter (selects scope (m.union n))).filter (m.contains ·.category) =
      controls.filter (selects scope m) := by
  rw [List.filter_filter]
  apply List.filter_congr
  intro c _
  rw [selects, Control.Mask.contains_union, selects]
  cases m.contains c.category <;> simp

theorem union_comm (m n : Control.Mask) : m.union n = n.union m := by
  cases m
  cases n
  simp only [Control.Mask.union, Bool.or_comm]

theorem count_selects_union (scope : Control.Scope) (m n : Control.Mask)
    (controls : List Control) (c : Control) :
    (controls.filter (selects scope (m.union n))).count c =
      max ((controls.filter (selects scope m)).count c)
        ((controls.filter (selects scope n)).count c) := by
  have hcount : ∀ mask, (controls.filter (selects scope mask)).count c =
      if selects scope mask c then controls.count c else 0 := by
    intro mask
    split_ifs with h
    · exact List.count_filter h
    · exact List.count_eq_zero.2 fun hc => h (List.mem_filter.1 hc).2
  rw [hcount, hcount, hcount, selects_union]
  cases selects scope m c <;> cases selects scope n c <;> simp

/-! ## Calibrations -/

theorem selects_bare (scope : Control.Scope) (mask : Control.Mask) (c : Control) :
    selects scope mask c.bare = selects scope mask c := rfl

theorem map_bare_filter (scope : Control.Scope) (mask : Control.Mask) (controls : List Control) :
    (controls.filter (selects scope mask)).map Control.bare =
      (controls.map Control.bare).filter (selects scope mask) := by
  rw [List.filter_map]
  rfl

theorem visitControls_map_bare (hv : IgnoresCalibration visitor) {selected : Control → Bool}
    (hs : ∀ c, selected c.bare = selected c) (controls : List Control) (s : σ) :
    visitControls selected visitor (controls.map Control.bare) s =
      visitControls selected visitor controls s := by
  induction controls generalizing s with
  | nil => rfl
  | cons c controls ih =>
    rw [List.map_cons, visitControls, visitControls, hs, Control.bare, hv c none s]
    split_ifs
    · split
      · rfl
      · exact ih _
    · exact ih s

theorem visit_congr {l l' : Layout}
    (h : l'.controls.map Control.bare = l.controls.map Control.bare)
    (hv : IgnoresCalibration visitor) (scope : Control.Scope) (mask : Control.Mask) (s : σ) :
    l'.visit scope mask visitor s = l.visit scope mask visitor s := by
  rw [visit, ← visitControls_map_bare hv (selects_bare scope mask), h,
    visitControls_map_bare hv (selects_bare scope mask), visit]

end

theorem map_bare_set {controls : List Control} {index : Nat} {c : Control}
    (hi : controls[index]? = some c) (calibration? : Option Calibration) :
    (controls.set index { c with calibration? }).map Control.bare =
      controls.map Control.bare := by
  have hbare : (controls.map Control.bare)[index]? = some { c with calibration? }.bare := by
    rw [List.getElem?_map, hi]
    rfl
  obtain ⟨hlt, hget⟩ := List.getElem?_eq_some_iff.1 hbare
  rw [List.map_set, ← hget, List.set_getElem_self]

theorem TunedFrom.map_bare {base l : Layout} (h : base.TunedFrom l) :
    l.controls.map Control.bare = base.controls.map Control.bare := by
  apply List.ext_getElem?
  intro i
  rw [List.getElem?_map, List.getElem?_map]
  have hi := h.controls i
  generalize base.controls[i]? = b?, l.controls[i]? = c? at hi ⊢
  cases hi with
  | none => rfl
  | some hbc =>
    rw [Option.map_some, Option.map_some, hbc.eq_base]
    rfl

end Layout
end VirtualPad
