import VirtualPad.Proofs.Layout.Adjusted
import VirtualPad.Proofs.Session.Turn

/-!
# The history of a layout

The layout is handed out by the first enumeration that succeeds, for the mapper of the controller
that it finds. From there on to the next release only the setters change it, each the calibration at
its index.
-/
namespace VirtualPad

namespace Device

variable {d : Device}

theorem Coherent.layout_pin (h : d.Coherent) (hok : d.pin.1.isOk = true) :
    ∃ c, d.pin.2.controller? = some c ∧
      d.pin.2.layout? = some (d.layout?.getD (.ofMapper c.mapper)) := by
  cases hc : d.controller? with
  | none =>
    rw [pin_unbound hc] at hok
    cases hok
  | some c =>
    refine ⟨c, ?_⟩
    by_cases hp : d.pinned? = some c.mapper
    · -- What has been handed out is kept, whoever is bound by now.
      rw [pin_again hc hp]
      obtain ⟨l, hl, -⟩ := Option.map_eq_some_iff.1 hp
      exact ⟨hc, by rw [hl, Option.getD_some]⟩
    · rw [pin_first hc hp, h.layout_none_of_ne hc hp]
      exact ⟨hc, rfl⟩

theorem layout_calibrate (d : Device) (index : Nat)
    {change : Calibration → Except DeviceError Calibration} {a : Calibration.Adjustment}
    (ha : ∀ k k', change k = .ok k' → k' = k.adjust a) :
    (d.calibrate index change).2.layout? =
      if (d.calibrate index change).1.isOk then d.layout?.map (·.adjust (index, a))
      else d.layout? := by
  rcases calibrate_cases d index change with ⟨e, hr⟩ | ⟨l, c, k, k', hl, hc, hk, hk', hr⟩ <;> rw [hr]
  · rfl
  · obtain rfl := ha k k' hk'
    rw [hl, Option.map_some, Layout.adjust_of_calibration hc hk]
    rfl

theorem layout_setDeadzone (d : Device) (index : Nat) (points : Int32) :
    (d.setDeadzone index points).2.layout? =
      if (d.setDeadzone index points).1.isOk then d.layout?.map (·.adjust (index, .deadzone points))
      else d.layout? := by
  apply layout_calibrate
  rintro k k' ⟨⟩
  rfl

theorem layout_setSaturation (d : Device) (index : Nat) (points : Int32) :
    (d.setSaturation index points).2.layout? =
      if (d.setSaturation index points).1.isOk then
        d.layout?.map (·.adjust (index, .saturation points))
      else d.layout? := by
  apply layout_calibrate
  intro k k' hk
  split at hk
  · next k₁ hk₁ =>
    cases hk
    rw [Calibration.adjust, hk₁, Option.getD_some]
  · cases hk

end Device

namespace Session
open Calibration (Adjustment)
open Layout (adjusted)

def enumerates (s : Session) : Event → Bool
  | .enumerate offers => (s.enumerate offers).1.isOk
  | .pin => s.pin.1.isOk
  | _ => false

def adjustment? (s : Session) : Event → Option (Nat × Adjustment)
  | .setDeadzone index points =>
    if (s.setDeadzone index points).1.isOk then some (index, .deadzone points) else none
  | .setSaturation index points =>
    if (s.setSaturation index points).1.isOk then some (index, .saturation points) else none
  | _ => none

def adjustments : Session → List Event → List (Nat × Adjustment)
  | _, [] => []
  | s, e :: es => (s.adjustment? e).toList ++ adjustments (s.next e).2 es

abbrev Unenumerated : Session → List Event → Prop := Along fun s e => s.enumerates e = false

variable {s : Session} {e : Event} {m : Mapper} {calls : List (Nat × Adjustment)}

theorem enumerate_eq_pin (hd : s.device.Coherent) (offers : List (List UInt8)) :
    (∃ error, s.enumerate offers = (.error error, s)) ∨
    ∃ t : Session, t.device.Coherent ∧ t.device.layout? = s.device.layout? ∧
      s.enumerate offers = t.pin := by
  simp only [enumerate]
  split_ifs
  · exact .inl ⟨_, rfl⟩
  · exact .inl ⟨_, rfl⟩
  · -- What is heard before the last part may bind, but hands nothing out.
    obtain ⟨c?, sample, published, hf⟩ :=
      hearOffers_frame { s with listening := true } (s.network.through offers)
    have hsteps := hearOffers_steps { s with listening := true } (s.network.through offers)
    refine .inr ⟨_, Device.keep_of_steps .step hsteps hd, ?_, rfl⟩
    rw [hf]

/-! ## One event -/

theorem layout_next_of_enumerates (hd : s.device.Coherent) (h : s.enumerates e = true) :
    ∃ c, (s.next e).2.device.controller? = some c ∧
      (s.next e).2.device.layout? = some (s.device.layout?.getD (.ofMapper c.mapper)) := by
  cases e with
  | enumerate offers =>
    simp only [enumerates] at h
    simp only [next]
    rcases enumerate_eq_pin hd offers with ⟨error, hr⟩ | ⟨t, ht, hl, hr⟩ <;> rw [hr] at h ⊢
    · cases h
    · rw [← hl]
      exact ht.layout_pin h
  | pin => exact hd.layout_pin h
  | _ => cases h

theorem layout_next_of_adjustment {call : Nat × Adjustment} (h : s.adjustment? e = some call) :
    (s.next e).2.device.layout? = s.device.layout?.map (·.adjust call) := by
  cases e with
  | setDeadzone index points =>
    obtain ⟨hok, ⟨⟩⟩ := Option.ite_none_right_eq_some.1 h
    exact (s.device.layout_setDeadzone index points).trans (if_pos hok)
  | setSaturation index points =>
    obtain ⟨hok, ⟨⟩⟩ := Option.ite_none_right_eq_some.1 h
    exact (s.device.layout_setSaturation index points).trans (if_pos hok)
  | _ => cases h

theorem layout_next_of_neither (hd : s.device.Coherent) (he : e ≠ .release)
    (hn : s.enumerates e = false) (ha : s.adjustment? e = none) :
    (s.next e).2.device.layout? = s.device.layout? := by
  cases e with
  | dispatch bytes =>
    rw [(s.next_of_bytes rfl).2.1]
    exact Device.layout_receive _ _
  | receive bytes size =>
    rw [(s.next_of_bytes rfl).2.1]
    exact Device.layout_receive _ _
  | fail => rfl
  | enumerate offers =>
    simp only [enumerates] at hn
    simp only [next]
    rcases enumerate_eq_pin hd offers with ⟨error, hr⟩ | ⟨t, -, hl, hr⟩ <;> rw [hr] at hn ⊢
    rw [← hl, pin, Device.pin_unbound (Device.unbound_of_pin hn)]
    rfl
  | pin =>
    rw [next, pin, Device.pin_unbound (Device.unbound_of_pin hn)]
    rfl
  | acquire h => exact Device.layout_acquire _ _
  | unacquire => rfl
  | read =>
    rcases s.next_read_cases with ⟨-, -, -, hs⟩ | ⟨l, -, -, -, -, hs⟩ <;> rw [hs]
  | setDeadzone index points =>
    have hok (h : (s.setDeadzone index points).1.isOk = true) : False :=
      Option.some_ne_none _ (ite_eq_right_iff.1 ha h)
    exact (s.device.layout_setDeadzone index points).trans (if_neg hok)
  | setSaturation index points =>
    have hok (h : (s.setSaturation index points).1.isOk = true) : False :=
      Option.some_ne_none _ (ite_eq_right_iff.1 ha h)
    exact (s.device.layout_setSaturation index points).trans (if_neg hok)
  | release => exact absurd rfl he
  | takePermit h => rfl

theorem layout_next_of_not_adjusts {l : Layout} (hd : s.device.Coherent) (he : e ≠ .release)
    (hl : s.device.layout? = some l) (ha : s.adjustment? e = none) :
    (s.next e).2.device.layout? = some l := by
  cases hn : s.enumerates e with
  | true =>
    obtain ⟨c, -, hlayout⟩ := layout_next_of_enumerates hd hn
    rw [hlayout, hl, Option.getD_some]
  | false => rw [layout_next_of_neither hd he hn ha, hl]

/-! ## Runs -/

theorem adjusted_next (hd : s.device.Coherent) (he : e ≠ .release)
    (hl : s.device.layout? = some (adjusted m calls)) :
    (s.next e).2.device.layout? = some (adjusted m (calls ++ (s.adjustment? e).toList)) := by
  cases ha : s.adjustment? e with
  | some call =>
    rw [layout_next_of_adjustment ha, hl, Option.map_some, Layout.adjust_adjusted]
    rfl
  | none =>
    rw [Option.toList_none, List.append_nil]
    exact layout_next_of_not_adjusts hd he hl ha

theorem adjusted_after {es : List Event} (hd : s.device.Coherent) (hes : .release ∉ es)
    (hl : s.device.layout? = some (adjusted m calls)) :
    (s.after es).device.layout? = some (adjusted m (calls ++ s.adjustments es)) := by
  induction es generalizing s calls with
  | nil => rw [after_nil, adjustments, List.append_nil, hl]
  | cons e es ih =>
    rw [List.mem_cons, not_or] at hes
    rw [after_cons, adjustments, ← List.append_assoc]
    exact ih (coherent_run hd [e]) hes.2 (adjusted_next hd (Ne.symm hes.1) hl)

theorem layout_of_unenumerated {es : List Event} (hd : s.device.Coherent) (hes : .release ∉ es)
    (hl : s.device.layout? = none) (h : Unenumerated s es) :
    (s.after es).device.layout? = none := by
  induction es generalizing s with
  | nil => exact hl
  | cons e es ih =>
    rw [List.mem_cons, not_or] at hes
    have hnext : (s.next e).2.device.layout? = none := by
      cases ha : s.adjustment? e with
      | some call => rw [layout_next_of_adjustment ha, hl, Option.map_none]
      | none => rw [layout_next_of_neither hd (Ne.symm hes.1) h.1 ha, hl]
    exact ih (coherent_run hd [e]) hes.2 hnext h.2

theorem layout_of_first {before rest : List Event} (hd : s.device.Coherent)
    (hes : .release ∉ before ++ e :: rest) (hl : s.device.layout? = none)
    (hbefore : Unenumerated s before) (he : (s.after before).enumerates e = true) :
    ∃ c, ((s.after before).next e).2.device.controller? = some c ∧
      (s.after (before ++ e :: rest)).device.layout? =
        some (adjusted c.mapper (((s.after before).next e).2.adjustments rest)) := by
  rw [List.mem_append, List.mem_cons, not_or, not_or] at hes
  have hd' := coherent_run hd before
  obtain ⟨c, hc, hlayout⟩ := layout_next_of_enumerates hd' he
  rw [layout_of_unenumerated hd hes.1 hl hbefore, Option.getD_none,
    Layout.ofMapper_eq_adjusted] at hlayout
  rw [after_append, after_cons]
  exact ⟨c, hc, adjusted_after (coherent_run hd' [e]) hes.2.2 hlayout⟩

theorem exists_first {es : List Event} (h : ¬ Unenumerated s es) :
    ∃ before e rest, es = before ++ e :: rest ∧ Unenumerated s before ∧
      (s.after before).enumerates e = true := by
  induction es generalizing s with
  | nil => exact absurd trivial h
  | cons e es ih =>
    cases he : s.enumerates e with
    | true => exact ⟨[], e, es, rfl, trivial, he⟩
    | false =>
      obtain ⟨before, e', rest, rfl, hbefore, he'⟩ := ih fun hes => h ⟨he, hes⟩
      exact ⟨e :: before, e', rest, rfl, ⟨he, hbefore⟩, he'⟩

theorem layout_after_eq_none_iff {es : List Event} (hd : s.device.Coherent)
    (hes : .release ∉ es) (hl : s.device.layout? = none) :
    (s.after es).device.layout? = none ↔ Unenumerated s es := by
  refine ⟨?_, layout_of_unenumerated hd hes hl⟩
  intro hnone
  by_contra h
  obtain ⟨before, e, rest, rfl, hbefore, he⟩ := exists_first h
  obtain ⟨c, -, hlayout⟩ := layout_of_first hd hes hl hbefore he
  cases hnone.symm.trans hlayout

theorem layout_after_eq_some_iff {es : List Event} (hd : s.device.Coherent)
    (hes : .release ∉ es) (hl : s.device.layout? = none) (l : Layout) :
    (s.after es).device.layout? = some l ↔
      ∃ before e rest c, es = before ++ e :: rest ∧ Unenumerated s before ∧
        (s.after before).enumerates e = true ∧
        ((s.after before).next e).2.device.controller? = some c ∧
        l = adjusted c.mapper (((s.after before).next e).2.adjustments rest) := by
  constructor
  · intro hsome
    have h : ¬ Unenumerated s es := by
      rw [← layout_after_eq_none_iff hd hes hl, hsome]
      nofun
    obtain ⟨before, e, rest, rfl, hbefore, he⟩ := exists_first h
    obtain ⟨c, hc, hlayout⟩ := layout_of_first hd hes hl hbefore he
    exact ⟨before, e, rest, c, rfl, hbefore, he, hc, Option.some.inj (hsome.symm.trans hlayout)⟩
  · rintro ⟨before, e, rest, c, rfl, hbefore, he, hc, rfl⟩
    obtain ⟨c', hc', hlayout⟩ := layout_of_first hd hes hl hbefore he
    obtain rfl := Option.some.inj (hc.symm.trans hc')
    exact hlayout

/-- Of any run that starts with a fresh device or goes on from a release. There is a layout once an
enumeration has succeeded. It is that of the mapper of the controller that is bound after the first
one, in which each calibration has gone through the calls for its index that succeeded since. No
event but such a call changes it, and none its mapper. -/
theorem layout_of_history (n : Network) (pre mid : List Event)
    (hpre : Opens (fun _ e => e = .release) (fresh n) pre) (hmid : .release ∉ mid) :
    let s := (fresh n).after pre
    let t := s.after mid
    (t.device.layout? = none ↔ Unenumerated s mid) ∧
    (∀ l, t.device.layout? = some l ↔
      ∃ before e rest c, mid = before ++ e :: rest ∧ Unenumerated s before ∧
        (s.after before).enumerates e = true ∧
        ((s.after before).next e).2.device.controller? = some c ∧
        l = adjusted c.mapper (((s.after before).next e).2.adjustments rest)) ∧
    ∀ e l, e ≠ .release → t.device.layout? = some l →
      ∃ l', (t.next e).2.device.layout? = some l' ∧ l'.mapper = l.mapper ∧
        (t.adjustment? e = none → l' = l) := by
  intro s t
  have hd : s.device.Coherent := coherent_run (s := fresh n) .fresh pre
  have hnone : s.device.layout? = none := by
    rw [device_of_opens hpre]
    rfl
  refine ⟨layout_after_eq_none_iff hd hmid hnone, layout_after_eq_some_iff hd hmid hnone, ?_⟩
  intro e l he hl
  have ht : t.device.Coherent := coherent_run hd mid
  cases ha : t.adjustment? e with
  | some call =>
    rw [layout_next_of_adjustment ha, hl]
    exact ⟨l.adjust call, rfl, rfl, nofun⟩
  | none => exact ⟨l, layout_next_of_not_adjusts ht he hl ha, rfl, fun _ => rfl⟩

def released : List Event :=
  [.dispatch (Datagram.encodeOffer (some ⟨1, .standard, "one"⟩)), .enumerate [],
    .setDeadzone 0 300, .release]

def unoffered : List Event :=
  [.enumerate [], .setDeadzone 0 100,
    .dispatch (Datagram.encodeOffer (some ⟨2, .extended, "two"⟩))]

def conflicted : List Event :=
  [.setDeadzone 0 5000, .setSaturation 0 2000, .setDeadzone 99 1,
    .dispatch (Datagram.encodeOffer (some ⟨3, .standard, "three"⟩)), .enumerate [], .acquire 7,
    .dispatch (Datagram.encodeOffer (some ⟨4, .extended, "four"⟩)), .enumerate [], .acquire 7,
    .read, .setSaturation 3 700, .unacquire]

theorem layout_of_history_conflict :
    Opens (fun _ e => e = .release) (fresh .standard) released ∧
    .release ∉ unoffered ++ .enumerate [] :: conflicted ∧
    let s := (fresh .standard).after released
    let t := s.after (unoffered ++ .enumerate [] :: conflicted)
    let l := adjusted .extended
      [(0, .deadzone 5000), (0, .saturation 2000), (3, .saturation 700)]
    Unenumerated s unoffered ∧ t.device.layout? = some l ∧
    t.device.controller? = some ⟨4, .extended, "four"⟩ ∧
    (l.controls[0]?.bind (·.calibration?)).map (·.saturation) = some 5000 ∧
    t.adjustment? .unacquire = none ∧ (t.next .unacquire).2.device.layout? = some l := by
  have hpre : Opens (fun _ e => e = .release) (fresh .standard) released :=
    .inr ⟨released.dropLast, .release, rfl, rfl⟩
  have hmid : .release ∉ unoffered ++ .enumerate [] :: conflicted := by
    simp [unoffered, conflicted]
  have hbefore : Unenumerated ((fresh .standard).after released) unoffered := by
    simp only [Unenumerated, Along, unoffered]
    decide +kernel
  have hfirst : (((fresh .standard).after released).after unoffered).enumerates (.enumerate []) =
      true := by decide +kernel
  have hfound : ((((fresh .standard).after released).after unoffered).next
      (.enumerate [])).2.device.controller? = some ⟨2, .extended, "two"⟩ := by decide +kernel
  have hcalls : [(0, .deadzone 5000), (0, .saturation 2000), (3, .saturation 700)] =
      ((((fresh .standard).after released).after unoffered).next (.enumerate [])).2.adjustments
        conflicted := by decide +kernel
  obtain ⟨-, hsome, hkeep⟩ := layout_of_history .standard released _ hpre hmid
  have hl := (hsome _).2 ⟨unoffered, .enumerate [], conflicted, _, rfl, hbefore, hfirst,
    hfound, congrArg (adjusted .extended) hcalls⟩
  obtain ⟨l', hl', -, heq⟩ := hkeep .unacquire _ (by simp) hl
  obtain rfl := heq rfl
  refine ⟨hpre, hmid, hbefore, hl, ?_, ?_, rfl, hl'⟩
  · decide +kernel
  · decide +kernel

end Session
end VirtualPad
