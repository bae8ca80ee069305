import VirtualPad.Proofs.Session.Turn

/-!
# What outlasts a binding

Datagrams bind and unbind, but they take nothing from the framework: who holds the device, what was
handed out and the count of reads stay. A device that was acquired is therefore read again as soon
as a controller with its mapper is offered.
-/
namespace VirtualPad

namespace Device
open Datagram (decode)

structure SameHold (d d' : Device) : Prop where
  acquired : d'.acquired = d.acquired
  handle : d'.handle? = d.handle?
  layout : d'.layout? = d.layout?
  record : d'.record? = d.record?
  sequence : d'.sequence = d.sequence

variable {d d' d'' : Device}

theorem SameHold.refl (d : Device) : d.SameHold d := ⟨rfl, rfl, rfl, rfl, rfl⟩

theorem SameHold.trans (h : d.SameHold d') (h' : d'.SameHold d'') : d.SameHold d'' :=
  ⟨h'.acquired.trans h.acquired, h'.handle.trans h.handle, h'.layout.trans h.layout,
    h'.record.trans h.record, h'.sequence.trans h.sequence⟩

theorem receive_sameHold (d : Device) (bytes : List UInt8) :
    d.SameHold (d.receive bytes).device := by
  obtain ⟨c?, sample, published, hr⟩ := d.receive_frame bytes
  rw [hr]
  exact ⟨rfl, rfl, rfl, rfl, rfl⟩

theorem taken?_ne_of_turnsAt {datagram : Datagram} (h : d.turnsAt datagram = true)
    (hb : d.controller? ≠ none) : d.taken? datagram ≠ d.controller? := by
  cases datagram with
  | offer c? =>
    cases c? with
    | none => exact hb.symm
    | some c =>
      simp only [turnsAt] at h
      rcases d.bind_cases c with ⟨hf, -⟩ | ⟨-, -, hr⟩ | ⟨hf, hc, -⟩
      · rw [taken?_of_not_fits hf]
        exact hb.symm
      · rw [hr] at h
        cases h
      · rw [taken?_of_fits hf]
        exact hc.symm
  | state ack id s => exact hb.symm
  | release => exact hb.symm

theorem Coherent.of_published_ne (hd : d.Coherent) {bytes : List UInt8}
    (h : (d.receive bytes).device.published ≠ d.published) :
    (d.receive bytes).device.controller? ≠ d.controller? ∧
      (d.receive bytes).device.sample = .zero := by
  have hb : d.controller? ≠ none := by
    intro hn
    rcases d.published_receive bytes with hp | hp
    · exact h hp
    · exact h (hp.trans (hd.zero_of_unbound hn).2.symm)
  simp only [receive] at h ⊢
  cases hdecode : decode bytes with
  | error e => exact absurd (by simp only [hdecode]) h
  | ok datagram =>
    simp only [hdecode] at h ⊢
    rcases d.hear_cases datagram with ⟨ht, hr, -⟩ | ⟨-, -, ⟨s, hr⟩, -⟩ | ⟨-, -, hr, -⟩ <;>
      rw [hr] at h ⊢
    · exact ⟨taken?_ne_of_turnsAt ht hb, rfl⟩
    · exact absurd rfl h
    · exact absurd rfl h

theorem controller_receive_offer {bytes : List UInt8} {c : Controller}
    (hb : decode bytes = .ok (.offer (some c))) (hf : d.Fits c) :
    (d.receive bytes).device.controller? = some c := by
  simp only [receive, hb, hear, hearOffer]
  rcases d.bind_cases c with ⟨hn, -⟩ | ⟨-, hc, hr⟩ | ⟨-, -, hr⟩
  · exact absurd hf hn
  · rw [hr]
    exact hc
  · rw [hr]

end Device

namespace Session
open Datagram (decode)

theorem sameHold_foldl (s : Session) (history : List (List UInt8)) :
    s.device.SameHold (history.foldl dispatch s).device := by
  induction history generalizing s with
  | nil => exact .refl _
  | cons bytes history ih =>
    have hstep := s.device.receive_sameHold bytes
    rw [← device_dispatch] at hstep
    exact hstep.trans (ih (s.dispatch bytes))

theorem published_foldl (s : Session) (history : List (List UInt8)) :
    (history.foldl dispatch s).device.published = s.device.published ∨
      (history.foldl dispatch s).device.published = .zero := by
  induction history generalizing s with
  | nil => exact .inl rfl
  | cons bytes history ih =>
    rw [List.foldl_cons]
    have hstep := s.device.published_receive bytes
    rw [← device_dispatch] at hstep
    rcases ih (s.dispatch bytes) with h | h
    · rw [h]
      exact hstep
    · exact .inr h

theorem foldl_dispatch (s : Session) (history : List (List UInt8)) :
    history.foldl dispatch s = s.after (history.map .dispatch) := by
  induction history generalizing s with
  | nil => rfl
  | cons bytes history ih => exact ih (s.dispatch bytes)

theorem dispatch_undecodable (s : Session) {bytes : List UInt8} {e : Datagram.DecodeError}
    (h : decode bytes = .error e) :
    s.dispatch bytes = { s with counters.dropped := s.counters.dropped + 1 } := by
  simp only [dispatch, Device.receive, h]
  rfl

theorem read_dispatch_offer {β κ : Type} [StateSink β] [EventSink κ] {t : Session} {l : Layout}
    (ha : t.device.acquired = true) (hl : t.device.layout? = some l) {bytes : List UInt8}
    {c : Controller} (hb : decode bytes = .ok (.offer (some c))) (hm : c.mapper = l.mapper)
    (buffer : β) (queue : κ) :
    ∃ changed, ((t.dispatch bytes).read buffer queue).1.outcome = .updated changed := by
  have hold := t.device.receive_sameHold bytes
  have hf : t.device.Fits c := .inr (by rw [Device.pinned?, hl, hm]; rfl)
  rw [← device_dispatch] at hold
  have hc := Device.controller_receive_offer hb hf
  rw [← device_dispatch] at hc
  simp only [read]
  rw [Device.read_acquired (hold.acquired.trans ha) hc (hold.layout.trans hl)]
  exact ⟨_, rfl⟩

/-- In every state that a run reaches and whatever comes in. Datagrams leave the holder of the
device and what was handed out alone. They take back what is published only where they change the
controller, which leaves nothing of its sample, and those that cannot be read are counted and do
nothing else. So whoever has acquired the device reads it again after the next offer of a controller
with the mapper handed out. -/
theorem hold_outlasts_datagrams (n : Network) (es : List Event) (history : List (List UInt8)) :
    let s := (fresh n).after es
    let t := history.foldl dispatch s
    s.device.SameHold t.device ∧
    (t.device.published = s.device.published ∨ t.device.published = .zero) ∧
    (∀ bytes, (t.dispatch bytes).device.published ≠ t.device.published →
      (t.dispatch bytes).device.controller? ≠ t.device.controller? ∧
      (t.dispatch bytes).device.sample = .zero) ∧
    (∀ bytes e, decode bytes = .error e →
      t.dispatch bytes = { t with counters.dropped := t.counters.dropped + 1 }) ∧
    (s.device.acquired = true → ∃ l, s.device.layout? = some l ∧
      ∀ bytes c, decode bytes = .ok (.offer (some c)) → c.mapper = l.mapper →
        ∀ {β κ : Type} [StateSink β] [EventSink κ] (buffer : β) (queue : κ),
          ∃ changed, ((t.dispatch bytes).read buffer queue).1.outcome = .updated changed) := by
  intro s t
  have hs : s.device.Coherent := coherent_run (s := fresh n) .fresh es
  have ht : t.device.Coherent := by
    simp only [t]
    rw [foldl_dispatch]
    exact coherent_run hs _
  have hold : s.device.SameHold t.device := sameHold_foldl s history
  refine ⟨hold, published_foldl s history, ?_, fun bytes e => dispatch_undecodable t, ?_⟩
  · intro bytes
    rw [device_dispatch]
    exact ht.of_published_ne
  · intro ha
    obtain ⟨l, hl⟩ := hs.pinned_of_acquired ha
    refine ⟨l, hl, fun bytes c hb hm {β κ} _ _ buffer queue => ?_⟩
    exact read_dispatch_offer (hold.acquired.trans ha) (hold.layout.trans hl) hb hm buffer queue

def held : List Event :=
  [.dispatch (Datagram.encodeOffer (some ⟨1, .standard, "one"⟩)), .enumerate [], .acquire 7,
    .dispatch (Datagram.encodeState 1 1 ⟨1, 2, 300, 0, 0, -9⟩), .read]

def outage : List (List UInt8) :=
  [Datagram.encodeState 0 1 .zero, [77, 9], Datagram.encodeOffer (some ⟨4, .extended, "four"⟩),
    Datagram.encodeRelease]

theorem hold_outlasts_datagrams_outage :
    let s := (fresh .standard).after held
    let t := outage.foldl dispatch s
    let lost := Datagram.encodeState 0 1 .zero
    let back := Datagram.encodeOffer (some ⟨2, .standard, "two"⟩)
    s.device.acquired = true ∧ s.device.SameHold t.device ∧ t.device.sequence = 1 ∧
    (s.dispatch lost).device.published ≠ s.device.published ∧
    (s.dispatch lost).device.controller? ≠ s.device.controller? ∧
    t.dispatch [77, 9] = { t with counters.dropped := 3 } ∧
    Datagram.decode back = .ok (.offer (some ⟨2, .standard, "two"⟩)) ∧
    ∃ changed, ((t.dispatch back).read StateImage.zero ([] : List ChangeEvent)).1.outcome =
      .updated changed := by
  intro s t lost back
  have ha : s.device.acquired = true := by decide +kernel
  have hlost : (s.dispatch lost).device.published ≠ s.device.published := by decide +kernel
  have hback : Datagram.decode back = .ok (.offer (some ⟨2, .standard, "two"⟩)) := by rfl
  have hnoise : Datagram.decode [77, 9] = .error (.unknownCode 77) := by rfl
  have hdropped : t.counters.dropped + 1 = 3 := by decide +kernel
  have hsequence : t.device.sequence = 1 := by decide +kernel
  obtain ⟨-, -, htakes, -, -⟩ := hold_outlasts_datagrams .standard held []
  obtain ⟨hold, -, -, hcounts, hresumes⟩ := hold_outlasts_datagrams .standard held outage
  obtain ⟨l, hl, hreads⟩ := hresumes ha
  have hm : Mapper.standard = l.mapper := by
    have hlayout : s.device.layout? = some (.ofMapper .standard) := by decide +kernel
    cases hl.symm.trans hlayout
    rfl
  have hcount := hcounts _ _ hnoise
  rw [hdropped] at hcount
  exact ⟨ha, hold, hsequence, hlost, (htakes lost hlost).1, hcount, hback,
    hreads back _ hback hm _ _⟩

end Session
end VirtualPad
