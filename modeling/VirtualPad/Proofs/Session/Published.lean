import VirtualPad.Proofs.Device.Publish
import VirtualPad.Proofs.Device.Tuned
import VirtualPad.Proofs.Mapping

/-!
# What runs publish

Every value that a run writes or reports is one that its control may show, and none comes from a
word that wrapped or a quotient that was replaced.
-/
namespace VirtualPad
namespace Session
open Device (valuesOf changes)

theorem mem_run {s : Session} {es : List Event} {o : Outcome} (h : o ∈ (s.run es).1) :
    ∃ pre e post, es = pre ++ e :: post ∧ o = ((s.after pre).next e).1 := by
  induction es generalizing s with
  | nil => cases h
  | cons e es ih =>
    rcases List.mem_cons.1 h with rfl | h
    · exact ⟨[], e, es, rfl, rfl⟩
    · obtain ⟨pre, e', post, rfl, ho⟩ := ih h
      exact ⟨e :: pre, e', post, rfl, ho⟩

theorem outcome_next (s : Session) (e : Event) :
    ((s.next e).1.writes = [] ∧ (s.next e).1.events = []) ∨
    ∃ l, s.device.layout? = some l ∧
      (s.next e).1.writes = valuesOf (.ofSample l s.device.sample) l.controls ∧
      (s.next e).1.events =
        changes s.device.published (.ofSample l s.device.sample) (s.device.sequence + 1)
          l.controls := by
  cases e with
  | read =>
    rcases Device.read_cases s.device ([] : List (Control × Int32)) ([] : List ChangeEvent) with
      ⟨-, hr⟩ | ⟨c, l, -, -, hl, hr⟩
    · refine .inl ⟨?_, ?_⟩ <;> simp only [next, read, Outcome.ofRead] <;> rw [hr]
    · refine .inr ⟨l, hl, ?_, ?_⟩ <;>
        simp only [next, read, Outcome.ofRead, hr, Device.readLayout, Device.publish_lists]
  | _ => exact .inl ⟨rfl, rfl⟩

theorem writes_in_range {s : Session} (hs : s.device.Tuned) (e : Event) :
    ∀ w ∈ (s.next e).1.writes, w.1.kind.Allows w.2 := by
  intro w hw
  rcases outcome_next s e with ⟨hn, -⟩ | ⟨l, hl, hv, -⟩
  · rw [hn] at hw
    cases hw
  · rw [hv] at hw
    obtain ⟨c, -, rfl⟩ := List.mem_map.1 hw
    exact (hs l hl).inRange_ofSample s.device.sample c.kind

theorem events_written (s : Session) (e : Event) :
    ∀ event ∈ (s.next e).1.events, ∃ w ∈ (s.next e).1.writes,
      event.index = w.1.index ∧ event.offset = w.1.offset ∧ event.value = w.2 := by
  intro event hevent
  rcases outcome_next s e with ⟨-, hn⟩ | ⟨l, -, hv, hc⟩
  · rw [hn] at hevent
    cases hevent
  · rw [hc] at hevent
    obtain ⟨w, hw, rfl⟩ := Device.mem_changes hevent
    exact ⟨w, hv ▸ hw, rfl, rfl, rfl⟩

/-- Whatever a run does, what it publishes is in range, the setters find their bounds in order,
and the checked value of a control is its value. -/
theorem published_in_range (n : Network) (es : List Event) :
    (∀ o ∈ ((fresh n).run es).1,
      (∀ w ∈ o.writes, w.1.kind.Allows w.2) ∧
      ∀ event ∈ o.events, ∃ w ∈ o.writes,
        event.index = w.1.index ∧ event.offset = w.1.offset ∧ event.value = w.2) ∧
    (∀ index points,
      (((fresh n).after es).device.setSaturation index points).1 ≠ .error .deadzoneOutOfRange) ∧
    ∀ l, ((fresh n).after es).device.layout? = some l → ∀ c ∈ l.controls,
      (∀ k, c.calibration? = some k → k.Tuned) ∧
      ∀ sample, c.value? sample = some (c.value sample) := by
  refine ⟨?_, ?_, ?_⟩
  · intro o ho
    obtain ⟨pre, e, post, -, rfl⟩ := mem_run ho
    exact ⟨writes_in_range (tuned_after n pre) e, events_written _ e⟩
  · exact (tuned_after n es).setSaturation_ne
  · intro l hl c hc
    have ht := tuned_after n es l hl
    obtain ⟨base, -, hb⟩ := ht.exists_base hc
    exact ⟨fun k hk => hb.tuned hk, ht.value?_eq hc⟩

def coinciding : List Event :=
  [.dispatch (Datagram.encodeOffer (some ⟨1, .standard, "pad"⟩)), .enumerate [], .acquire 7,
    .setDeadzone 0 5000, .setSaturation 0 5000,
    .dispatch (Datagram.encodeState 1 1 ⟨0x801, 3, -20000, 5, 32767, -32768⟩), .read]

theorem published_in_range_coinciding :
    (((fresh .standard).run coinciding).1.map fun o => o.writes.map (·.2)).getLast? =
      some [0, 32773, 65535, 0, 13500, 0, 128, 0, 0, 0, 0, 0, 128, 0, 0, 0, 0] ∧
    ∀ o ∈ ((fresh .standard).run coinciding).1, ∀ w ∈ o.writes, w.1.kind.Allows w.2 :=
  ⟨by decide +kernel, fun o ho => ((published_in_range .standard coinciding).1 o ho).1⟩

end Session
end VirtualPad
