import Mathlib.Logic.Relation
import Mathlib.Tactic.SplitIfs
import VirtualPad.Proofs.Device.Receive
import VirtualPad.Session.Run

/-!
# Elementary steps

Whatever an event of a session does to the device is done by a few operations of the device. An
invariant of the device has to be looked at for these operations only, and then holds after every
run.
-/
namespace VirtualPad

namespace Device

inductive Step : Device → Device → Prop
  | unbind (d : Device) : Step d d.unbind
  | bind (d : Device) (c : Controller) (hc : 0 < c.id) : Step d (d.bind c).2
  | store (d : Device) (s : Sample) (hd : d.isBound) : Step d (d.store s).2
  | pin (d : Device) : Step d d.pin.2
  | acquire (d : Device) (h : Handle) : Step d (d.acquire h).2
  | unacquire (d : Device) : Step d d.unacquire
  | read (d : Device) :
      Step d (d.read ([] : List (Control × Int32)) ([] : List ChangeEvent)).device
  | setDeadzone (d : Device) (index : Nat) (points : Int32) :
      Step d (d.setDeadzone index points).2
  | setSaturation (d : Device) (index : Nat) (points : Int32) :
      Step d (d.setSaturation index points).2
  | reset (d : Device) : Step d .fresh

abbrev Steps : Device → Device → Prop := Relation.ReflTransGen Step

theorem keep_of_steps {P : Device → Prop} (hstep : ∀ {d d' : Device}, Step d d' → P d → P d')
    {d d' : Device} (h : Steps d d') (hd : P d) : P d' := by
  induction h with
  | refl => exact hd
  | tail _ hs ih => exact hstep hs ih

theorem hear_steps (d : Device) {bytes : List UInt8} {datagram : Datagram}
    (h : Datagram.decode bytes = .ok datagram) : Steps d (d.hear datagram).device := by
  cases datagram with
  | offer c? =>
    cases c? with
    | none => exact .single (.unbind d)
    | some c => exact .single (.bind d c (Datagram.id_pos_of_decode h))
  | state ack id s =>
    rw [hear]
    rcases d.hearState_cases ack id s with ⟨-, hr⟩ | ⟨c, hc, ⟨-, hr⟩ | ⟨-, hr⟩⟩ <;> rw [hr]
    · exact .refl
    · exact .single (.store d s (by simp [isBound, hc]))
    · exact .single (.unbind d)
  | release => exact .single (.unbind d)

theorem receive_steps (d : Device) (bytes : List UInt8) : Steps d (d.receive bytes).device := by
  simp only [receive]
  cases h : Datagram.decode bytes with
  | ok datagram => exact hear_steps d h
  | error e => exact .refl

end Device

namespace Session
open Device (Step Steps)

@[simp]
theorem device_deposit (s : Session) (h? : Option Handle) :
    (s.deposit h?).device = s.device := by
  cases h? with
  | none => rfl
  | some h =>
    simp only [deposit]
    split_ifs <;> rfl

@[simp]
theorem counters_deposit (s : Session) (h? : Option Handle) :
    (s.deposit h?).counters = s.counters := by
  cases h? with
  | none => rfl
  | some h =>
    simp only [deposit]
    split_ifs <;> rfl

@[simp]
theorem device_accept (s : Session) (r : Reception) : (s.accept r).device = r.device :=
  device_deposit _ _

@[simp]
theorem device_dispatch (s : Session) (bytes : List UInt8) :
    (s.dispatch bytes).device = (s.device.receive bytes).device := by
  unfold dispatch
  dsimp only
  split_ifs <;> exact device_accept _ _

theorem hearOffers_steps (s : Session) (offers : List (List UInt8)) :
    Steps s.device (s.hearOffers offers).device := by
  induction offers generalizing s with
  | nil => exact .refl
  | cons bytes rest ih =>
    simp only [hearOffers]
    split_ifs with hb
    · exact .refl
    · have h := ih (s.accept (s.device.receive (bytes.take Datagram.controlSize)))
      rw [device_accept] at h
      exact (Device.receive_steps _ _).trans h

theorem enumerate_steps (s : Session) (offers : List (List UInt8)) :
    Steps s.device (s.enumerate offers).2.device := by
  simp only [enumerate]
  split_ifs
  · exact .refl
  · exact .refl
  · exact (hearOffers_steps { s with listening := true } _).tail (.pin _)

theorem next_steps (s : Session) (e : Event) : Steps s.device (s.next e).2.device := by
  cases e with
  | dispatch bytes =>
    simp only [next, device_dispatch]
    exact Device.receive_steps _ _
  | receive bytes size =>
    simp only [next, receive, device_dispatch]
    exact Device.receive_steps _ _
  | fail => exact .single (.unbind _)
  | enumerate offers => exact enumerate_steps s offers
  | pin => exact .single (.pin _)
  | acquire h => exact .single (.acquire _ h)
  | unacquire => exact .single (.unacquire _)
  | read =>
    simp only [next, read, device_deposit]
    exact .single (.read _)
  | setDeadzone index points => exact .single (.setDeadzone _ index points)
  | setSaturation index points => exact .single (.setSaturation _ index points)
  | release => exact .single (.reset _)
  | takePermit h => exact .refl

theorem after_steps (s : Session) (es : List Event) : Steps s.device (s.after es).device := by
  induction es generalizing s with
  | nil => exact .refl
  | cons e es ih => exact (next_steps s e).trans (ih _)

theorem device_after_fresh {P : Device → Prop} (hfresh : P .fresh)
    (hstep : ∀ {d d' : Device}, Step d d' → P d → P d') (n : Network) (es : List Event) :
    P ((fresh n).after es).device :=
  Device.keep_of_steps hstep (after_steps (fresh n) es) hfresh

end Session
end VirtualPad
