import VirtualPad.Proofs.Datagram.StateTrip
import VirtualPad.Proofs.Device.Step
import VirtualPad.Proofs.Shown

/-!
# From the datagram to the image

A state of the bound controller is what the next read shows, whatever follows it in its datagram
and whatever the image held before.
-/
namespace VirtualPad

namespace Device

variable {d : Device} {c : Controller} {l : Layout}

theorem receive_state (hc : d.controller? = some c) (s : Sample) (rest : List UInt8) :
    (d.receive (Datagram.encodeState 1 c.id s ++ rest)).device = { d with sample := s } := by
  rw [receive, Datagram.decode_encodeState_append]
  simp only [hear, hearState, hc, and_self, if_true, store]

theorem buffer_readLayout {κ : Type} [EventSink κ] (d : Device) (l : Layout) (image : StateImage)
    (queue : κ) : (d.readLayout l image queue).buffer = image.refresh l d.sample := by
  simp only [readLayout, publish_eq]
  rfl

end Device

namespace Session

def readAfter {κ : Type} [EventSink κ] (s : Session) (bytes : List UInt8) (image : StateImage)
    (queue : κ) : ReadResult StateImage κ :=
  ((s.dispatch bytes).read image queue).1

theorem readAfter_state {κ : Type} [EventSink κ] {s : Session} {l : Layout} {c : Controller}
    (ha : s.device.acquired = true) (hc : s.device.controller? = some c)
    (hl : s.device.layout? = some l) (sample : Sample) (rest : List UInt8) (image : StateImage)
    (queue : κ) :
    s.readAfter (Datagram.encodeState 1 c.id sample ++ rest) image queue =
      { s.device with sample }.readLayout l image queue := by
  simp only [readAfter, read, device_dispatch, Device.receive_state hc]
  exact Device.read_acquired (d := { s.device with sample }) ha hc hl image queue

/-- Of an acquired device that nobody has calibrated. What is read shows the sample that came in,
and two samples give the same image exactly when they are alike under the mapper. -/
theorem image_of_state {κ : Type} [EventSink κ] {s : Session} {m : Mapper} {c : Controller}
    (ha : s.device.acquired = true) (hc : s.device.controller? = some c)
    (hl : s.device.layout? = some (.ofMapper m)) (sample : Sample) (rest : List UInt8)
    (image : StateImage) (queue : κ) :
    let read := fun sample rest =>
      s.readAfter (Datagram.encodeState 1 c.id sample ++ rest) image queue
    (∃ changed, (read sample rest).outcome = .updated changed) ∧
    (read sample rest).buffer.Shows sample m ∧
    ∀ other rest', (read sample rest).buffer = (read other rest').buffer ↔
      sample.Alike other m := by
  simp only [readAfter_state ha hc hl, Device.buffer_readLayout]
  exact ⟨⟨_, rfl⟩, StateImage.shows_refresh image sample m,
    fun other _ => StateImage.refresh_eq_iff image sample other⟩

def extendedReady : Session :=
  (fresh .standard).after
    [.dispatch (Datagram.encodeOffer (some ⟨7, .extended, "pad"⟩)), .enumerate [], .acquire 3]

/-- Both triggers are pulled and both ends of a stick are reached; bit 12 has no control. -/
theorem image_of_state_extended :
    extendedReady.device.acquired = true ∧
    extendedReady.device.controller? = some ⟨7, .extended, "pad"⟩ ∧
    extendedReady.device.layout? = some (.ofMapper .extended) ∧
    let sample : Sample := ⟨0x1E01, 7, -32768, 32767, -1, 0⟩
    let read := extendedReady.readAfter (Datagram.encodeState 1 7 sample ++ [1, 2, 3]) .zero
      ([] : List ChangeEvent)
    read.buffer.Shows sample .extended ∧
    (read.buffer.axis .x, read.buffer.axis .y, read.buffer.axis .z) = (0, 65535, 65535) ∧
    read.buffer.pov = 31500 ∧ read.buffer.button 9 = 0x80 ∧ read.buffer.button 8 = 0 := by
  have ha : extendedReady.device.acquired = true := by decide +kernel
  have hc : extendedReady.device.controller? = some ⟨7, .extended, "pad"⟩ := by decide +kernel
  have hl : extendedReady.device.layout? = some (.ofMapper .extended) := by decide +kernel
  refine ⟨ha, hc, hl, ?_, ?_⟩
  · exact (image_of_state ha hc hl _ [1, 2, 3] .zero ([] : List ChangeEvent)).2.1
  · decide +kernel

end Session
end VirtualPad
