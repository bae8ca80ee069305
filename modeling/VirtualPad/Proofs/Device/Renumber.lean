import VirtualPad.Proofs.Device.Publish
import VirtualPad.Proofs.Device.Turn

/-!
# Devices with other numbers

Nothing that a device does depends on the record that it handed out or on how many reads it has
numbered. Devices that differ in nothing else stay so, and their reads differ in their numbers only.
-/
namespace VirtualPad

def ChangeEvent.renumber (offset : UInt32) (e : ChangeEvent) : ChangeEvent :=
  { e with sequence := e.sequence + offset }

namespace Device

def renumber (record? : Option DeviceRecord) (offset : UInt32) (d : Device) : Device :=
  { d with record?, sequence := d.sequence + offset }

variable (record? : Option DeviceRecord) (offset : UInt32) (d : Device)

theorem bind_renumber (c : Controller) :
    (d.renumber record? offset).bind c =
      ((d.bind c).1, (d.bind c).2.renumber record? offset) := by
  simp only [bind]
  split_ifs with h h' h' <;> first | rfl | contradiction

theorem store_renumber (s : Sample) :
    (d.renumber record? offset).store s =
      ((d.store s).1, (d.store s).2.renumber record? offset) := rfl

theorem wake?_renumber : (d.renumber record? offset).wake? = d.wake? := rfl

theorem hear_renumber (datagram : Datagram) :
    (d.renumber record? offset).hear datagram =
      { d.hear datagram with device := (d.hear datagram).device.renumber record? offset } := by
  cases datagram with
  | offer c? =>
    cases c? with
    | none => rfl
    | some c => simp only [hear, hearOffer, bind_renumber]
  | state ack id s =>
    have hcontroller : (d.renumber record? offset).controller? = d.controller? := rfl
    simp only [hear, hearState, hcontroller, store_renumber, wake?_renumber]
    cases d.controller? with
    | none => rfl
    | some c =>
      by_cases hack : ack = 1 ∧ id = c.id
      · simp only [if_pos hack]
        rfl
      · simp only [if_neg hack]
        rfl
  | release => rfl

theorem receive_renumber (bytes : List UInt8) :
    (d.renumber record? offset).receive bytes =
      { d.receive bytes with device := (d.receive bytes).device.renumber record? offset } := by
  simp only [receive]
  cases Datagram.decode bytes with
  | ok datagram => exact hear_renumber record? offset d datagram
  | error e => rfl

theorem acquire_renumber (h : Handle) :
    (d.renumber record? offset).acquire h =
      ((d.acquire h).1, (d.acquire h).2.renumber record? offset) := by
  cases hc : d.controller? with
  | none =>
    rw [acquire_unbound hc, acquire_unbound (d := d.renumber record? offset) hc]
    rfl
  | some c =>
    cases hl : d.layout? with
    | none =>
      rw [acquire_unpinned hc hl, acquire_unpinned (d := d.renumber record? offset) hc hl]
    | some l =>
      rw [acquire_pinned hc hl, acquire_pinned (d := d.renumber record? offset) hc hl]
      rfl

theorem calibrate_renumber (index : Nat) (change : Calibration → Except DeviceError Calibration) :
    (d.renumber record? offset).calibrate index change =
      ((d.calibrate index change).1, (d.calibrate index change).2.renumber record? offset) := by
  have hcalibrated : (d.renumber record? offset).calibrated index = d.calibrated index := rfl
  simp only [calibrate, hcalibrated]
  cases d.calibrated index with
  | error e => rfl
  | ok found =>
    obtain ⟨l, c, k⟩ := found
    dsimp only
    cases change k <;> rfl

theorem changes_renumber (old new : Snapshot) (sequence : UInt32) (controls : List Control) :
    changes old new (sequence + offset) controls =
      (changes old new sequence controls).map (.renumber offset) := by
  simp only [changes, List.map_map]
  rfl

abbrev Listing := ReadResult (List (Control × Int32)) (List ChangeEvent)

theorem read_renumber :
    ((d.renumber record? offset).read [] [] : Listing) =
      { (d.read [] [] : Listing) with
        device := (d.read [] [] : Listing).device.renumber record? offset
        queue := (d.read [] [] : Listing).queue.map (.renumber offset) } := by
  have hnext : d.sequence + offset + 1 = d.sequence + 1 + offset := by
    rw [UInt32.add_assoc, UInt32.add_comm offset 1, ← UInt32.add_assoc]
  have hlayout : ∀ l, ((d.renumber record? offset).readLayout l [] [] : Listing) =
      { (d.readLayout l [] [] : Listing) with
        device := (d.readLayout l [] [] : Listing).device.renumber record? offset
        queue := (d.readLayout l [] [] : Listing).queue.map (.renumber offset) } := by
    intro l
    simp only [readLayout, publish_lists, wake?_renumber]
    simp only [renumber, hnext, changes_renumber, List.length_map]
    split_ifs <;> rfl
  have hcontroller : (d.renumber record? offset).isBound = d.isBound := rfl
  have hacquired : (d.renumber record? offset).acquired = d.acquired := rfl
  have hlayout? : (d.renumber record? offset).layout? = d.layout? := rfl
  simp only [read, hcontroller, hacquired, hlayout?]
  split_ifs
  · rfl
  · rfl
  · cases d.layout? with
    | none => rfl
    | some l => exact hlayout l

end Device
end VirtualPad
