import VirtualPad.Device.Basic
import VirtualPad.EventQueue
import VirtualPad.StateImage

/-!
# Reading

A read derives a snapshot from the last sample, writes the value of every control, and reports
those that differ from the snapshot published before. Where values and events go is up to the
caller.
-/
namespace VirtualPad

class StateSink (β : Type) where
  write : β → Control → Int32 → β

class EventSink (κ : Type) where
  push : κ → ChangeEvent → κ

instance : StateSink StateImage := ⟨StateImage.write⟩
instance : StateSink Snapshot := ⟨fun s c value => s.setValue c.kind value⟩

instance : StateSink (List (Control × Int32)) := ⟨fun writes c value => writes ++ [(c, value)]⟩

instance : EventSink EventQueue := ⟨EventQueue.push⟩
instance : EventSink (List ChangeEvent) := ⟨fun events e => events ++ [e]⟩

inductive ReadOutcome where
  | idle
  /-- It is acquired, but no controller is bound. -/
  | inputLost
  | updated (changed : Nat)
  deriving DecidableEq

structure Publication (β κ : Type) where
  buffer : β
  queue : κ
  changed : Nat

structure ReadResult (β κ : Type) where
  outcome : ReadOutcome
  device : Device
  buffer : β
  queue : κ
  wake? : Option Handle

namespace Device

variable {β κ : Type} [StateSink β] [EventSink κ]

def publishControl (old new : Snapshot) (sequence : UInt32) (p : Publication β κ) (c : Control) :
    Publication β κ :=
  let value := new.value c.kind
  let buffer := StateSink.write p.buffer c value
  if value = old.value c.kind then { p with buffer }
  else ⟨buffer, EventSink.push p.queue ⟨c.index, c.offset, value, sequence⟩, p.changed + 1⟩

def publish (old new : Snapshot) (sequence : UInt32) (controls : List Control) (buffer : β)
    (queue : κ) : Publication β κ :=
  controls.foldl (publishControl old new sequence) ⟨buffer, queue, 0⟩

/-- The sequence number advances, and the handle is woken, only when something changed. -/
def readLayout (d : Device) (l : Layout) (buffer : β) (queue : κ) : ReadResult β κ :=
  let snapshot := Snapshot.ofSample l d.sample
  let sequence := d.sequence + 1
  let p := publish d.published snapshot sequence l.controls buffer queue
  { outcome := .updated p.changed
    device := { d with
      published := snapshot, sequence := if p.changed = 0 then d.sequence else sequence }
    buffer := p.buffer
    queue := p.queue
    wake? := if p.changed = 0 then none else d.wake? }

def read (d : Device) (buffer : β) (queue : κ) : ReadResult β κ :=
  if !d.acquired then ⟨.idle, d, buffer, queue, none⟩
  else if !d.isBound then ⟨.inputLost, d, buffer, queue, none⟩
  else
    match d.layout? with
    | none => ⟨.idle, d, buffer, queue, none⟩
    | some l => d.readLayout l buffer queue

end Device
end VirtualPad
