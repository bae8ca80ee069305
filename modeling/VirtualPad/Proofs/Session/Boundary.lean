import VirtualPad.Proofs.Device.Renumber
import VirtualPad.Proofs.Device.Step

/-!
# Nothing passes a boundary

Where a binding ends or another one begins, all that the controller before has sent is forgotten. Two
sessions that differ in nothing else go on alike from there, but for the numbers of their reads.
-/
namespace VirtualPad

namespace Device

/-- A datagram after which no controller is bound, or another one. -/
inductive Boundary (d : Device) : Datagram → Prop
  | release : Boundary d .release
  | nothingOffered : Boundary d (.offer none)
  | conflict (c : Controller) (h : ¬ d.Fits c) : Boundary d (.offer (some c))
  | otherOffered (c : Controller) (h : d.controller? ≠ some c) : Boundary d (.offer (some c))

theorem Boundary.turnsAt {d : Device} {datagram : Datagram} (h : d.Boundary datagram) :
    d.turnsAt datagram = true := by
  cases h with
  | release => rfl
  | nothingOffered => rfl
  | conflict c h =>
    simp only [Device.turnsAt, bind_conflict h]
    rfl
  | otherOffered c h =>
    simp only [Device.turnsAt]
    rcases d.bind_cases c with ⟨-, hr⟩ | ⟨-, hc, -⟩ | ⟨-, -, hr⟩
    · rw [hr]
      rfl
    · exact absurd hc h
    · rw [hr]
      rfl

theorem hear_of_turnsAt {d : Device} {datagram : Datagram} (h : d.turnsAt datagram = true) :
    (d.hear datagram).device = d.startOver (d.taken? datagram) ∧
      (d.hear datagram).wake? = none := by
  rcases d.hear_cases datagram with ⟨-, hr⟩ | ⟨hn, -⟩ | ⟨hn, -⟩
  · exact hr
  · cases h.symm.trans hn
  · cases h.symm.trans hn

variable {d e : Device}

theorem taken?_congr (h : e.layout? = d.layout?) (datagram : Datagram) :
    e.taken? datagram = d.taken? datagram := by
  have hpinned : e.pinned? = d.pinned? := by simp only [pinned?, h]
  cases datagram with
  | offer c? => cases c? <;> simp only [taken?, hpinned]
  | state ack id s => rfl
  | release => rfl

theorem startOver_eq_renumber (hl : e.layout? = d.layout?) (ha : e.acquired = d.acquired)
    (hh : e.handle? = d.handle?) (c? : Option Controller) :
    e.startOver c? = (d.startOver c?).renumber e.record? (e.sequence - d.sequence) := by
  have hs : d.sequence + (e.sequence - d.sequence) = e.sequence := by
    rw [UInt32.add_comm, UInt32.sub_add_cancel]
  simp only [startOver, renumber, hs, hl, ha, hh]

theorem hear_boundary {datagram : Datagram} (hl : e.layout? = d.layout?)
    (ha : e.acquired = d.acquired) (hh : e.handle? = d.handle?) (hd : d.Boundary datagram)
    (he : e.Boundary datagram) :
    (e.hear datagram).device =
      (d.hear datagram).device.renumber e.record? (e.sequence - d.sequence) ∧
    (e.hear datagram).wake? = (d.hear datagram).wake? := by
  obtain ⟨hdd, hdw⟩ := hear_of_turnsAt hd.turnsAt
  obtain ⟨hed, hew⟩ := hear_of_turnsAt he.turnsAt
  rw [hdd, hdw, hed, hew, taken?_congr hl]
  exact ⟨startOver_eq_renumber hl ha hh _, rfl⟩

end Device

namespace Session

def Event.goesOn : Event → Bool
  | .enumerate _ => false
  | .pin => false
  | .release => false
  | _ => true

def Outcome.renumber (offset : UInt32) (o : Outcome) : Outcome :=
  { o with events := o.events.map (.renumber offset) }

variable {s t : Session} {record? : Option DeviceRecord} {offset : UInt32}

theorem next_renumber (h : t.device = s.device.renumber record? offset) {e : Event}
    (he : e.goesOn = true) :
    (t.next e).1 = (s.next e).1.renumber offset ∧
      (t.next e).2.device = (s.next e).2.device.renumber record? offset := by
  cases e with
  | dispatch bytes =>
    simp only [next, device_dispatch, h, Device.receive_renumber]
    exact ⟨rfl, trivial⟩
  | receive bytes size =>
    simp only [next, receive, device_dispatch, h, Device.receive_renumber]
    exact ⟨rfl, trivial⟩
  | fail =>
    simp only [next, withDevice, h]
    exact ⟨rfl, rfl⟩
  | enumerate offers => cases he
  | pin => cases he
  | acquire handle =>
    simp only [next, acquire, withDevice, h, Device.acquire_renumber]
    exact ⟨rfl, trivial⟩
  | unacquire =>
    simp only [next, unacquire, withDevice, h]
    exact ⟨rfl, rfl⟩
  | read =>
    simp only [next, read, device_deposit, withDevice, h, Device.read_renumber]
    exact ⟨rfl, trivial⟩
  | setDeadzone index points =>
    simp only [next, setDeadzone, withDevice, h, Device.setDeadzone, Device.calibrate_renumber]
    exact ⟨rfl, trivial⟩
  | setSaturation index points =>
    simp only [next, setSaturation, withDevice, h, Device.setSaturation, Device.calibrate_renumber]
    exact ⟨rfl, trivial⟩
  | release => cases he
  | takePermit handle => exact ⟨rfl, h⟩

theorem run_renumber (h : t.device = s.device.renumber record? offset) {es : List Event}
    (hes : ∀ e ∈ es, e.goesOn = true) :
    (t.run es).1 = (s.run es).1.map (.renumber offset) := by
  induction es generalizing s t with
  | nil => rfl
  | cons e es ih =>
    obtain ⟨ho, hd⟩ := next_renumber h (hes e List.mem_cons_self)
    have hrest := ih hd fun e' he' => hes e' (List.mem_cons_of_mem e he')
    simp only [run, List.map_cons, ho, hrest]

/-- Two sessions whose devices were handed out alike come to a boundary of both. Whatever they had
heard, read or numbered before, they find, write, wake and report the same from there on, and all
numbers differ by the same amount. -/
theorem alike_after_boundary (hl : t.device.layout? = s.device.layout?)
    (ha : t.device.acquired = s.device.acquired) (hh : t.device.handle? = s.device.handle?)
    {bytes : List UInt8} {datagram : Datagram} (hb : Datagram.decode bytes = .ok datagram)
    (hs : s.device.Boundary datagram) (ht : t.device.Boundary datagram) {es : List Event}
    (hes : ∀ e ∈ es, e.goesOn = true) :
    (t.run (.dispatch bytes :: es)).1 =
      (s.run (.dispatch bytes :: es)).1.map
        (.renumber (t.device.sequence - s.device.sequence)) := by
  obtain ⟨hd, hw⟩ := Device.hear_boundary hl ha hh hs ht
  have hdevice : (t.dispatch bytes).device = (s.dispatch bytes).device.renumber
      t.device.record? (t.device.sequence - s.device.sequence) := by
    simp only [device_dispatch, Device.receive, hb, hd]
  have hwake : (t.device.receive bytes).wake? = (s.device.receive bytes).wake? := by
    simp only [Device.receive, hb, hw]
  have hrest := run_renumber hdevice hes
  simp only [run, next, List.map_cons, hwake, hrest]
  rfl

def pressing : Session :=
  (fresh .standard).after
    [.dispatch (Datagram.encodeOffer (some ⟨1, .standard, "one"⟩)), .enumerate [], .acquire 7,
      .dispatch (Datagram.encodeState 1 1 ⟨3, 2, 100, 0, 0, -5⟩), .read,
      .dispatch (Datagram.encodeState 1 1 ⟨0xFFF, 0, -32768, 0, 9, 0⟩)]

def silent : Session :=
  (fresh .standard).after
    [.dispatch (Datagram.encodeOffer (some ⟨2, .standard, "two"⟩)), .enumerate [], .acquire 7]

def thirdPlays : List Event :=
  [.read, .dispatch (Datagram.encodeState 1 3 ⟨1, 8, 400, 0, 0, 0⟩), .setDeadzone 0 200, .read,
    .dispatch Datagram.encodeRelease, .read]

theorem alike_after_boundary_third :
    silent.device.layout? = pressing.device.layout? ∧
    silent.device.acquired = pressing.device.acquired ∧
    silent.device.handle? = pressing.device.handle? ∧
    Datagram.decode (Datagram.encodeOffer (some ⟨3, .standard, "three"⟩)) =
      .ok (.offer (some ⟨3, .standard, "three"⟩)) ∧
    pressing.device.Boundary (.offer (some ⟨3, .standard, "three"⟩)) ∧
    silent.device.Boundary (.offer (some ⟨3, .standard, "three"⟩)) ∧
    (∀ e ∈ thirdPlays, e.goesOn = true) ∧
    let third : Event := .dispatch (Datagram.encodeOffer (some ⟨3, .standard, "three"⟩))
    (silent.run (third :: thirdPlays)).1 =
      (pressing.run (third :: thirdPlays)).1.map
        (.renumber (silent.device.sequence - pressing.device.sequence)) ∧
    ((pressing.run (third :: thirdPlays)).1.flatMap fun o => o.events.map (·.sequence)) =
      [2, 2, 2, 2, 3, 3, 3] ∧
    ((silent.run (third :: thirdPlays)).1.flatMap fun o => o.events.map (·.sequence)) =
      [1, 1, 1, 1, 2, 2, 2] := by
  have hl : silent.device.layout? = pressing.device.layout? := by decide +kernel
  have ha : silent.device.acquired = pressing.device.acquired := by decide +kernel
  have hh : silent.device.handle? = pressing.device.handle? := by decide +kernel
  have hb : Datagram.decode (Datagram.encodeOffer (some ⟨3, .standard, "three"⟩)) =
      .ok (.offer (some ⟨3, .standard, "three"⟩)) := by rfl
  have hs : pressing.device.Boundary (.offer (some ⟨3, .standard, "three"⟩)) :=
    .otherOffered _ (by decide +kernel)
  have ht : silent.device.Boundary (.offer (some ⟨3, .standard, "three"⟩)) :=
    .otherOffered _ (by decide +kernel)
  have hes : ∀ e ∈ thirdPlays, e.goesOn = true := by simp [thirdPlays, Event.goesOn]
  refine ⟨hl, ha, hh, hb, hs, ht, hes, alike_after_boundary hl ha hh hb hs ht hes, ?_, ?_⟩
  · decide +kernel
  · decide +kernel

end Session
end VirtualPad
