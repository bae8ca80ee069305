import VirtualPad.Proofs.Device.Calls

/-!
# What a read publishes

A read writes the value of every control of the layout, in their order, and reports the controls
whose value is another one than before.
-/
namespace VirtualPad
namespace Device

def changes (old new : Snapshot) (sequence : UInt32) (controls : List Control) :
    List ChangeEvent :=
  (controls.filter fun c => new.value c.kind ≠ old.value c.kind).map fun c =>
    ⟨c.index, c.offset, new.value c.kind, sequence⟩

def valuesOf (new : Snapshot) (controls : List Control) : List (Control × Int32) :=
  controls.map fun c => (c, new.value c.kind)

theorem mem_changes {old new : Snapshot} {sequence : UInt32} {controls : List Control}
    {e : ChangeEvent} (h : e ∈ changes old new sequence controls) :
    ∃ w ∈ valuesOf new controls, e = ⟨w.1.index, w.1.offset, w.2, sequence⟩ := by
  obtain ⟨c, hc, rfl⟩ := List.mem_map.1 h
  exact ⟨_, List.mem_map_of_mem (List.mem_filter.1 hc).1, rfl⟩

theorem changes_self (new : Snapshot) (sequence : UInt32) (controls : List Control) :
    changes new new sequence controls = [] := by
  simp [changes]

section
variable {β κ : Type} [StateSink β] [EventSink κ]

theorem foldl_publishControl (old new : Snapshot) (sequence : UInt32) (controls : List Control)
    (p : Publication β κ) :
    controls.foldl (publishControl old new sequence) p =
      ⟨(valuesOf new controls).foldl (fun b w => StateSink.write b w.1 w.2) p.buffer,
        (changes old new sequence controls).foldl EventSink.push p.queue,
        p.changed + (changes old new sequence controls).length⟩ := by
  induction controls generalizing p with
  | nil => rfl
  | cons c controls ih =>
    rw [List.foldl_cons, ih]
    by_cases hc : new.value c.kind = old.value c.kind
    · simp [publishControl, valuesOf, changes, hc]
    · simp [publishControl, valuesOf, changes, hc, Nat.add_assoc, Nat.add_comm]

theorem publish_eq (old new : Snapshot) (sequence : UInt32) (controls : List Control) (buffer : β)
    (queue : κ) :
    publish old new sequence controls buffer queue =
      ⟨(valuesOf new controls).foldl (fun b w => StateSink.write b w.1 w.2) buffer,
        (changes old new sequence controls).foldl EventSink.push queue,
        (changes old new sequence controls).length⟩ := by
  rw [publish, foldl_publishControl, Nat.zero_add]

end

theorem foldl_concat {α : Type} (xs ys : List α) :
    xs.foldl (fun zs x => zs ++ [x]) ys = ys ++ xs := by
  induction xs generalizing ys with
  | nil => exact (List.append_nil ys).symm
  | cons x xs ih => rw [List.foldl_cons, ih, List.append_assoc, List.singleton_append]

theorem publish_lists (old new : Snapshot) (sequence : UInt32) (controls : List Control) :
    publish old new sequence controls ([] : List (Control × Int32)) ([] : List ChangeEvent) =
      ⟨valuesOf new controls, changes old new sequence controls,
        (changes old new sequence controls).length⟩ := by
  rw [publish_eq]
  simp only [StateSink.write, EventSink.push, foldl_concat, List.nil_append]

end Device
end VirtualPad
