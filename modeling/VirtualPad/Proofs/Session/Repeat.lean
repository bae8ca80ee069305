import VirtualPad.Proofs.Device.Receive
import VirtualPad.Proofs.Device.Step

/-!
# Datagrams that come again

A datagram that is delivered once more finds what it says done already. It changes nothing but the
count of what is dropped, which grows as it did before, and wakes nobody.
-/
namespace VirtualPad

namespace Device

theorem hearOffer_of_bind {d e : Device} {c : Controller} {outcome : BindOutcome}
    (h : d.bind c = (outcome, e)) :
    d.hearOffer (some c) = ⟨e, outcome = .mapperConflict, none⟩ := by
  simp only [hearOffer, h]

theorem hearOffer_again (d : Device) (c : Controller) :
    (d.hearOffer (some c)).device.hearOffer (some c) = d.hearOffer (some c) := by
  rcases d.bind_cases c with ⟨hf, hr⟩ | ⟨hf, hc, hr⟩ | ⟨hf, hc, hr⟩ <;> rw [hearOffer_of_bind hr]
  · have hconflict : ¬ d.unbind.Fits c := hf
    exact hearOffer_of_bind (bind_conflict hconflict)
  · exact hearOffer_of_bind hr
  · -- The controller has been bound by now, and is offered as one that is.
    have hfits : Device.Fits { d with controller? := some c, sample := .zero, published := .zero } c :=
      hf
    exact (hearOffer_of_bind (bind_same hfits rfl)).trans rfl

theorem hearState_again (d : Device) (ack : UInt8) (id : Int32) (s : Sample) :
    (d.hearState ack id s).device.hearState ack id s =
      { d.hearState ack id s with wake? := none } := by
  rcases d.hearState_cases ack id s with ⟨hn, hr⟩ | ⟨c, hc, ⟨hack, hr⟩ | ⟨hack, hr⟩⟩ <;> rw [hr]
  · exact hr
  · simp [hearState, hc, hack, store]
  · -- The device has been unbound and minds no states.
    rfl

theorem hear_again (d : Device) (datagram : Datagram) :
    (d.hear datagram).device.hear datagram = { d.hear datagram with wake? := none } := by
  cases datagram with
  | offer c? =>
    cases c? with
    | none => rfl
    | some c => exact hearOffer_again d c
  | state ack id s => exact hearState_again d ack id s
  | release => rfl

theorem receive_again (d : Device) (bytes : List UInt8) :
    (d.receive bytes).device.receive bytes = { d.receive bytes with wake? := none } := by
  simp only [receive]
  cases Datagram.decode bytes with
  | ok datagram => exact hear_again d datagram
  | error e => rfl

end Device

namespace Session

def dropMore (s : Session) (more : Nat) : Session :=
  { s with counters.dropped := s.counters.dropped + more }

theorem dispatch_eq (s : Session) (bytes : List UInt8) :
    s.dispatch bytes =
      (s.accept (s.device.receive bytes)).dropMore (s.device.receive bytes).dropped.toNat := by
  unfold dispatch
  dsimp only
  cases (s.device.receive bytes).dropped <;> rfl

theorem receive_dispatch (s : Session) (bytes : List UInt8) :
    (s.dispatch bytes).device.receive bytes = { s.device.receive bytes with wake? := none } := by
  rw [device_dispatch, Device.receive_again]

theorem accept_quiet {s : Session} {r : Reception} (hd : s.device = r.device) :
    s.accept { r with wake? := none } = s := by
  cases r
  cases hd
  rfl

theorem dispatch_dispatch (s : Session) (bytes : List UInt8) :
    (s.dispatch bytes).dispatch bytes =
      (s.dispatch bytes).dropMore (s.device.receive bytes).dropped.toNat := by
  rw [dispatch_eq (s.dispatch bytes), receive_dispatch, accept_quiet (device_dispatch s bytes)]

theorem counters_dispatch (s : Session) (bytes : List UInt8) :
    (s.dispatch bytes).counters =
      (s.dropMore (s.device.receive bytes).dropped.toNat).counters := by
  have hc : (s.accept (s.device.receive bytes)).counters = s.counters := counters_deposit _ _
  rw [dispatch_eq, dropMore, hc]
  rfl

/-- Whatever the state. Delivered again, a datagram leaves all but the counts as they are, wakes
nobody, and is dropped if it was dropped before. -/
theorem dispatch_again (s : Session) (bytes : List UInt8) :
    let once := s.dispatch bytes
    (once.device.receive bytes).wake? = none ∧
    ∃ more, once.counters = (s.dropMore more).counters ∧
      once.dispatch bytes = once.dropMore more := by
  refine ⟨?_, (s.device.receive bytes).dropped.toNat, counters_dispatch s bytes,
    dispatch_dispatch s bytes⟩
  rw [receive_dispatch]

/-! ## Histories -/

theorem deposit_dropMore (s : Session) (more : Nat) (h? : Option Handle) :
    (s.dropMore more).deposit h? = (s.deposit h?).dropMore more := by
  cases h? with
  | none => rfl
  | some h =>
    have hpermits : (s.dropMore more).permits = s.permits := rfl
    simp only [deposit, hpermits]
    split_ifs <;> rfl

theorem dispatch_dropMore (s : Session) (more : Nat) (bytes : List UInt8) :
    (s.dropMore more).dispatch bytes = (s.dispatch bytes).dropMore more := by
  have haccept : ∀ r, (s.dropMore more).accept r = (s.accept r).dropMore more :=
    fun r => deposit_dropMore (s.withDevice r.device) more r.wake?
  have hdevice : (s.dropMore more).device = s.device := rfl
  rw [dispatch_eq, dispatch_eq, hdevice, haccept]
  simp only [dropMore, Nat.add_right_comm]

theorem foldl_dispatch_dropMore (s : Session) (more : Nat) (history : List (List UInt8)) :
    history.foldl dispatch (s.dropMore more) = (history.foldl dispatch s).dropMore more := by
  induction history generalizing s with
  | nil => rfl
  | cons bytes history ih => rw [List.foldl_cons, List.foldl_cons, dispatch_dropMore, ih]

theorem foldl_dispatch_replicate (s : Session) (bytes : List UInt8) (again : Nat) :
    ∃ more, (List.replicate (again + 1) bytes).foldl dispatch s = (s.dispatch bytes).dropMore more := by
  induction again with
  | zero => exact ⟨0, rfl⟩
  | succ again ih =>
    obtain ⟨more, h⟩ := ih
    refine ⟨(s.device.receive bytes).dropped.toNat + more, ?_⟩
    rw [List.replicate_succ', List.foldl_append, h, List.foldl_cons, List.foldl_nil,
      dispatch_dropMore, dispatch_dispatch]
    simp only [dropMore, Nat.add_assoc]

/-- However often each datagram of a history is delivered on end, only the count of those dropped
tells. -/
theorem foldl_dispatch_repeated (s : Session) (history : List (List UInt8 × Nat)) :
    ∃ more, (history.flatMap fun p => List.replicate (p.2 + 1) p.1).foldl dispatch s =
      ((history.map (·.1)).foldl dispatch s).dropMore more := by
  induction history generalizing s with
  | nil => exact ⟨0, rfl⟩
  | cons p history ih =>
    obtain ⟨first, hfirst⟩ := foldl_dispatch_replicate s p.1 p.2
    obtain ⟨later, hlater⟩ := ih (s.dispatch p.1)
    refine ⟨later + first, ?_⟩
    rw [List.flatMap_cons, List.foldl_append, hfirst, foldl_dispatch_dropMore, hlater]
    simp only [List.map_cons, List.foldl_cons, dropMore, Nat.add_assoc]

end Session
end VirtualPad
