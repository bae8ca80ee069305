import Mathlib.Logic.Function.Iterate
import VirtualPad.Proofs.Device.Publish
import VirtualPad.Proofs.EventQueue

/-!
# Reads and their sinks

Where values and events go makes no difference to a read, and a read that is done again finds
nothing new. A bounded queue therefore keeps the newest of the events that an unbounded one gets.
-/
namespace VirtualPad

def ReadResult.into {β κ : Type} [StateSink β] [EventSink κ]
    (r : ReadResult (List (Control × Int32)) (List ChangeEvent)) (buffer : β) (queue : κ) :
    ReadResult β κ where
  outcome := r.outcome
  device := r.device
  buffer := r.buffer.foldl (fun buffer w => StateSink.write buffer w.1 w.2) buffer
  queue := r.queue.foldl EventSink.push queue
  wake? := r.wake?

namespace Device
open EventQueue (ofCapacity)

variable {d : Device} {l : Layout}

def reading (d : Device) : ReadResult (List (Control × Int32)) (List ChangeEvent) := d.read [] []

structure Ready (d : Device) (l : Layout) : Prop where
  acquired : d.acquired = true
  bound : d.isBound = true
  layout : d.layout? = some l

theorem Ready.not_missing (h : d.Ready l) :
    ¬ (d.acquired = false ∨ d.isBound = false ∨ d.layout? = none) := by
  simp [h.acquired, h.bound, h.layout]

theorem Ready.read_eq {β κ : Type} [StateSink β] [EventSink κ] (h : d.Ready l) (buffer : β)
    (queue : κ) : d.read buffer queue = d.readLayout l buffer queue := by
  obtain ⟨c, hc⟩ := Option.isSome_iff_exists.1 h.bound
  exact read_acquired h.acquired hc h.layout buffer queue

theorem reading_cases (d : Device) :
    (∃ l, d.Ready l) ∨
    (d.reading.outcome = .idle ∨ d.reading.outcome = .inputLost) ∧
      d.reading = ⟨d.reading.outcome, d, [], [], none⟩ := by
  rcases read_cases d ([] : List (Control × Int32)) ([] : List ChangeEvent) with
    h | ⟨c, l, ha, hc, hl, -⟩
  · exact .inr h
  · exact .inl ⟨l, ha, Option.isSome_iff_exists.2 ⟨c, hc⟩, hl⟩

theorem readLayout_lists (d : Device) (l : Layout) :
    let new := Snapshot.ofSample l d.sample
    let events := changes d.published new (d.sequence + 1) l.controls
    d.readLayout l ([] : List (Control × Int32)) ([] : List ChangeEvent) =
      { outcome := .updated events.length
        device := { d with
          published := new
          sequence := if events.length = 0 then d.sequence else d.sequence + 1 }
        buffer := valuesOf new l.controls
        queue := events
        wake? := if events.length = 0 then none else d.wake? } := by
  simp only [readLayout, publish_lists]

theorem read_into {β κ : Type} [StateSink β] [EventSink κ] (d : Device) (buffer : β)
    (queue : κ) : d.read buffer queue = d.reading.into buffer queue := by
  simp only [reading, read]
  split_ifs
  · rfl
  · rfl
  · cases d.layout? with
    | none => rfl
    | some l =>
      dsimp only
      rw [readLayout_lists]
      simp only [readLayout, ReadResult.into, publish_eq]

/-! ## What a read finds -/

theorem Ready.reading_eq (h : d.Ready l) :
    d.reading = d.readLayout l ([] : List (Control × Int32)) ([] : List ChangeEvent) :=
  h.read_eq _ _

theorem exists_ready_of_updated {n : Nat} (h : d.reading.outcome = .updated n) :
    ∃ l, d.Ready l := by
  rcases d.reading_cases with hl | ⟨ho | ho, -⟩
  · exact hl
  · cases ho.symm.trans h
  · cases ho.symm.trans h

theorem Ready.next (h : d.Ready l) : d.reading.device.Ready l := by
  rw [h.reading_eq]
  exact ⟨h.acquired, h.bound, h.layout⟩

/-- A snapshot does not differ from itself, however often its kinds are repeated. -/
theorem Ready.reading_again (h : d.Ready l) :
    d.reading.device.reading = ⟨.updated 0, d.reading.device, d.reading.buffer, [], none⟩ := by
  rw [h.next.reading_eq, readLayout_lists, h.reading_eq, readLayout_lists]
  simp only [changes_self, List.length_nil, if_true]

theorem Ready.device_iterate (h : d.Ready l) (k : Nat) :
    (fun d : Device => d.reading.device)^[k] d.reading.device = d.reading.device :=
  Function.iterate_fixed (by rw [h.reading_again]) k

/-! ## Reading again and again -/

def readAll {β κ : Type} [StateSink β] [EventSink κ] (ds : List Device) (buffer : β) (queue : κ) :
    β × κ :=
  ds.foldl (fun sinks d =>
    let r := d.read sinks.1 sinks.2
    (r.buffer, r.queue)) (buffer, queue)

theorem queue_readAll {β κ : Type} [StateSink β] [EventSink κ] (ds : List Device) (buffer : β)
    (queue : κ) :
    (readAll ds buffer queue).2 = (ds.flatMap (·.reading.queue)).foldl EventSink.push queue := by
  induction ds generalizing buffer queue with
  | nil => rfl
  | cons d ds ih =>
    rw [List.flatMap_cons, List.foldl_append]
    refine (ih _ _).trans ?_
    rw [read_into]
    rfl

theorem readAll_list {β : Type} [StateSink β] (ds : List Device) (buffer : β) :
    (readAll ds buffer ([] : List ChangeEvent)).2 = ds.flatMap (·.reading.queue) := by
  rw [queue_readAll]
  exact (foldl_concat _ _).trans (List.nil_append _)

theorem events_readAll {β γ : Type} [StateSink β] [StateSink γ] (ds : List Device) (buffer : β)
    (other : γ) (capacity : Nat) :
    let all := (readAll ds buffer ([] : List ChangeEvent)).2
    (readAll ds other (ofCapacity capacity)).2.events = all.drop (all.length - max capacity 1) := by
  rw [readAll_list, queue_readAll]
  exact (EventQueue.bounded_ofCapacity capacity).events_foldl_push _

/-- A read does the same whatever its sinks: it writes the value of every control in its order and
reports those that are new, or else does nothing at all. Done again it reports nothing. Over any
number of reads a queue keeps the newest events, up to its capacity, of those that a list gets. -/
theorem read_depends_on_device_only (d : Device) :
    (∀ {β κ : Type} [StateSink β] [EventSink κ] (buffer : β) (queue : κ),
      d.read buffer queue = d.reading.into buffer queue) ∧
    (∀ l, d.Ready l →
      let new := Snapshot.ofSample l d.sample
      d.reading.buffer = l.controls.map (fun c => (c, new.value c.kind)) ∧
      d.reading.queue =
        (l.controls.filter fun c => new.value c.kind ≠ d.published.value c.kind).map
          (fun c => ⟨c.index, c.offset, new.value c.kind, d.sequence + 1⟩) ∧
      d.reading.outcome =
        .updated (l.controls.countP fun c => new.value c.kind ≠ d.published.value c.kind) ∧
      d.reading.device.published = new) ∧
    (d.acquired = false ∨ d.isBound = false ∨ d.layout? = none →
      d.reading = ⟨d.reading.outcome, d, [], [], none⟩) ∧
    (∀ n, d.reading.outcome = .updated n → ∀ k,
      ((fun d : Device => d.reading.device)^[k] d.reading.device).reading =
        ⟨.updated 0, d.reading.device, d.reading.buffer, [], none⟩) ∧
    ∀ {β γ : Type} [StateSink β] [StateSink γ] (ds : List Device) (buffer : β) (other : γ)
      (capacity : Nat),
      let all := (readAll ds buffer ([] : List ChangeEvent)).2
      let kept := (readAll ds other (ofCapacity capacity)).2.events
      kept <:+ all ∧ kept.length = min (max capacity 1) all.length := by
  refine ⟨fun buffer queue => read_into d buffer queue, ?_, ?_, ?_, ?_⟩
  · intro l h
    rw [h.reading_eq, readLayout_lists]
    refine ⟨rfl, rfl, ?_, rfl⟩
    simp only [changes, List.length_map, ← List.countP_eq_length_filter]
  · intro h
    rcases d.reading_cases with ⟨l, hl⟩ | ⟨-, hr⟩
    · exact absurd h hl.not_missing
    · exact hr
  · intro n hn k
    obtain ⟨l, h⟩ := exists_ready_of_updated hn
    rw [h.device_iterate k, h.reading_again]
  · intro β γ _ _ ds buffer other capacity
    dsimp only
    rw [events_readAll ds buffer other capacity]
    refine ⟨List.drop_suffix _ _, ?_⟩
    rw [List.length_drop]
    omega

def repeated : Layout where
  mapper := .extended
  controls :=
    [.ofAxis 0 0 .x (.stick .leftX), .ofAxis 1 1 .x (.stick .leftY), .ofButton 2 40 0,
      .ofButton 3 3 0]

def repeatedReady : Device :=
  { fresh with
    controller? := some ⟨1, .extended, "pad"⟩
    sample := ⟨1, 8, 100, 200, 0, 0⟩
    acquired := true
    handle? := some 7
    layout? := some repeated }

theorem read_depends_on_device_only_repeated :
    repeatedReady.Ready repeated ∧
    repeatedReady.reading.outcome = .updated 3 ∧
    repeatedReady.reading.buffer.map (·.2) = [32968, 32968, 0, 0x80] ∧
    repeatedReady.reading.wake? = some 7 ∧
    (∀ k, ((fun d : Device => d.reading.device)^[k] repeatedReady.reading.device).reading.outcome =
      .updated 0) ∧
    (fresh.reading.buffer, fresh.reading.queue) = ([], []) ∧
    (readAll [repeatedReady, repeatedReady] StateImage.zero (ofCapacity 4)).2.size = 4 := by
  have hready : repeatedReady.Ready repeated := ⟨rfl, rfl, rfl⟩
  have houtcome : repeatedReady.reading.outcome = .updated 3 := by decide +kernel
  obtain ⟨-, hwrites, -, hagain, hqueue⟩ := read_depends_on_device_only repeatedReady
  obtain ⟨-, -, hfresh, -, -⟩ := read_depends_on_device_only fresh
  refine ⟨hready, houtcome, ?_, by decide +kernel, ?_, ?_, ?_⟩
  · rw [(hwrites repeated hready).1]
    decide +kernel
  · intro k
    rw [hagain 3 houtcome k]
  · rw [hfresh (.inl rfl)]
  · refine (hqueue _ ([] : List (Control × Int32)) StateImage.zero 4).2.trans ?_
    decide +kernel

end Device
end VirtualPad
