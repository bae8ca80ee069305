import VirtualPad.Proofs.Session.Repeat
import VirtualPad.Proofs.SimulatedHost

/-!
# Following the simulated host

Whoever the host sends anything to gets its offer first, and then states and further offers. A session
that takes these in, and that has no layout or one for the controller of the host, stays bound to it,
drops nothing and shows the last state.
-/
namespace VirtualPad

namespace SimulatedHost

inductive Message where
  | offer
  | frame (n : Nat)

namespace Message

def bytes : Message → List UInt8
  | .offer => SimulatedHost.offer
  | .frame n => SimulatedHost.frame n

def number? : Message → Option Nat
  | .offer => none
  | .frame n => some n

def lastSample? (messages : List Message) : Option Sample :=
  (messages.filterMap number?).getLast?.map fun n => .simulated (.ofNat (n % 64))

theorem lastSample?_offer (messages : List Message) :
    lastSample? (messages ++ [.offer]) = lastSample? messages := by
  simp [lastSample?, number?]

theorem lastSample?_frame (messages : List Message) (n : Nat) :
    lastSample? (messages ++ [.frame n]) = some (.simulated (.ofNat (n % 64))) := by
  simp [lastSample?, number?]

end Message

variable {Peer : Type} [DecidableEq Peer]

def sentTo (peer : Peer) (sent : List (Peer × List UInt8)) : List (List UInt8) :=
  (sent.filter fun p => p.1 = peer).map (·.2)

def Opened (peer : Peer) (sent : List (Peer × List UInt8)) : Prop :=
  sentTo peer sent = [] ∨ ∃ messages : List Message,
    sentTo peer sent = offer :: messages.map Message.bytes

theorem sentTo_concat (peer : Peer) (sent : List (Peer × List UInt8)) (p : Peer × List UInt8) :
    sentTo peer (sent ++ [p]) = sentTo peer sent ++ if p.1 = peer then [p.2] else [] := by
  rw [sentTo, List.filter_append, List.map_append, sentTo]
  split_ifs with hp <;> simp [hp]

theorem Opened.concat_offer {peer : Peer} {sent : List (Peer × List UInt8)}
    (ho : Opened peer sent) (sender : Peer) : Opened peer (sent ++ [(sender, offer)]) := by
  rw [Opened, sentTo_concat]
  by_cases hp : sender = peer
  · rw [if_pos hp]
    rcases ho with ho | ⟨messages, ho⟩ <;> rw [ho]
    · exact .inr ⟨[], rfl⟩
    · exact .inr ⟨messages ++ [.offer], by simp [Message.bytes]⟩
  · rw [if_neg hp, List.append_nil]
    exact ho

theorem Opened.concat_frame {peer target : Peer} {sent : List (Peer × List UInt8)}
    (ho : Opened peer sent) (hne : target = peer → sentTo peer sent ≠ []) (n : Nat) :
    Opened peer (sent ++ [(target, frame n)]) := by
  rw [Opened, sentTo_concat]
  by_cases hp : target = peer
  · rw [if_pos hp]
    rcases ho with ho | ⟨messages, ho⟩
    · exact absurd ho (hne hp)
    · exact .inr ⟨messages ++ [.frame n], by simp [ho, Message.bytes]⟩
  · rw [if_neg hp, List.append_nil]
    exact ho

variable {past : List (Event Peer)} {sent : List (Peer × List UInt8)} {h : SimulatedHost Peer}

theorem sentTo_run_ne_nil {peer : Peer} (ha : Awaits past peer) :
    sentTo peer ((start : SimulatedHost Peer).run past).1 ≠ [] := by
  induction past using List.reverseRecOn with
  | nil =>
    obtain ⟨before, bytes, after, heq, -⟩ := ha
    simp at heq
  | append_singleton past e ih =>
    rw [run_concat]
    have hsent := follows_run past
    rcases (awaits_concat past e peer).1 ha with ⟨bytes, rfl, hasks⟩ | ⟨ha, -⟩
    · rw [hsent.answer, hasks, if_pos rfl, Option.toList_some, sentTo_concat, if_pos rfl]
      exact List.append_ne_nil_of_right_ne_nil _ (List.cons_ne_nil _ _)
    · rw [sentTo, List.filter_append, List.map_append]
      exact List.append_ne_nil_of_left_ne_nil (ih ha) _

theorem opened_run (past : List (Event Peer)) (peer : Peer) :
    Opened peer ((start : SimulatedHost Peer).run past).1 := by
  induction past using List.reverseRecOn with
  | nil => exact .inl rfl
  | append_singleton past e ih =>
    rw [run_concat]
    have hsent := follows_run past
    cases e with
    | datagram bytes sender =>
      rw [hsent.answer]
      cases asks bytes with
      | true => exact ih.concat_offer sender
      | false => rwa [if_neg Bool.false_ne_true, Option.toList_none, List.append_nil]
    | tick =>
      cases htick : (((start : SimulatedHost Peer).run past).2.next .tick).1 with
      | none => rwa [Option.toList_none, List.append_nil]
      | some p =>
        obtain ⟨ha, hbytes⟩ := (hsent.tick_iff p.1 p.2).1 htick
        have hp : p = (p.1, frame ((statesIn ((start : SimulatedHost Peer).run past).1).length + 1)) :=
          Prod.ext rfl hbytes
        rw [Option.toList_some, hp]
        refine ih.concat_frame ?_ _
        rintro rfl
        exact sentTo_run_ne_nil ha

/-! ## The samples -/

def sweep (step : Int32) : Int32 :=
  (if step < 32 then step else 63 - step) * 2048 - 32768

structure InRange (step : Int32) : Prop where
  dpad_nonneg : 0 ≤ (Sample.simulated step).dpad
  dpad_le : (Sample.simulated step).dpad ≤ 7
  leftX_eq : (Sample.simulated step).leftX =
    (Calibration.clamp (-32768) 32767 (sweep step)).toInt16
  clamp_eq : Calibration.clamp (-32768) 32767 (sweep step) = sweep step
  leftX_toInt : (Sample.simulated step).leftX.toInt = (sweep step).toInt

theorem inRange (n : Nat) : InRange (.ofNat (n % 64)) := by
  have hround : ∀ m < 64,
      0 ≤ (Sample.simulated (.ofNat m)).dpad ∧ (Sample.simulated (.ofNat m)).dpad ≤ 7 ∧
      Calibration.clamp (-32768) 32767 (sweep (.ofNat m)) = sweep (.ofNat m) ∧
      (Sample.simulated (.ofNat m)).leftX.toInt = (sweep (.ofNat m)).toInt := by
    decide +kernel
  obtain ⟨hzero, hseven, hclamp, hleft⟩ := hround _ (Nat.mod_lt n (by decide))
  exact ⟨hzero, hseven, rfl, hclamp, hleft⟩

end SimulatedHost

/-! ## Taking in what is sent -/

namespace Device
open SimulatedHost (controller offer frame)

variable {d : Device}

theorem receive_offer_fits (hf : d.Fits controller) :
    (d.receive offer).device.controller? = some controller ∧ (d.receive offer).dropped = false := by
  have hr : d.receive offer = d.hearOffer (some controller) := rfl
  rw [hr]
  rcases d.bind_cases controller with ⟨hn, -⟩ | ⟨-, hc, hb⟩ | ⟨-, -, hb⟩
  · exact absurd hf hn
  · rw [hearOffer_of_bind hb]
    exact ⟨hc, rfl⟩
  · rw [hearOffer_of_bind hb]
    exact ⟨rfl, rfl⟩

theorem receive_offer_bound (hf : d.Fits controller) (hc : d.controller? = some controller) :
    d.receive offer = d.quiet :=
  (hearOffer_of_bind (bind_same hf hc)).trans rfl

theorem receive_simulated (hc : d.controller? = some controller) (n : Nat) :
    (d.receive (frame n)).device = { d with sample := .simulated (.ofNat (n % 64)) } ∧
      (d.receive (frame n)).dropped = false := by
  have hframe := Datagram.decode_encodeState_append 1 controller.id
    (.simulated (.ofNat (n % 64))) []
  rw [List.append_nil] at hframe
  have hr : d.receive (frame n) =
      d.hearState 1 controller.id (.simulated (.ofNat (n % 64))) := by
    simp only [receive, frame, hframe, hear]
  rw [hr]
  rcases d.hearState_cases 1 controller.id (.simulated (.ofNat (n % 64))) with
    ⟨hn, -⟩ | ⟨c, hc', ⟨-, hs⟩ | ⟨hack, -⟩⟩
  · cases hn.symm.trans hc
  · rw [hs]
    exact ⟨rfl, rfl⟩
  · obtain rfl : controller = c := Option.some.inj (hc.symm.trans hc')
    exact absurd ⟨rfl, rfl⟩ hack

end Device

namespace Session
open SimulatedHost (Message controller offer)

structure ShowsLast (s : Session) (messages : List Message) (t : Session) : Prop where
  fits : t.device.Fits controller
  bound : t.device.controller? = some controller
  dropped_eq : t.counters.dropped = s.counters.dropped
  sample_eq : ∀ sample, Message.lastSample? messages = some sample → t.device.sample = sample

variable {s t : Session} {messages : List Message}

theorem fits_dispatch {c : Controller} (hf : s.device.Fits c) (bytes : List UInt8) :
    (s.dispatch bytes).device.Fits c := by
  rw [device_dispatch, Device.Fits, Device.pinned?, Device.layout_receive]
  exact hf

theorem dropped_dispatch_of_not {bytes : List UInt8} (hd : (s.device.receive bytes).dropped = false) :
    (s.dispatch bytes).counters.dropped = s.counters.dropped := by
  rw [counters_dispatch, hd]
  rfl

theorem showsLast_offer (hf : s.device.Fits controller) : ShowsLast s [] (s.dispatch offer) := by
  obtain ⟨hbound, hdropped⟩ := Device.receive_offer_fits hf
  refine ⟨fits_dispatch hf offer, ?_, dropped_dispatch_of_not hdropped, nofun⟩
  rw [device_dispatch]
  exact hbound

theorem ShowsLast.dispatch (h : ShowsLast s messages t) (m : Message) :
    ShowsLast s (messages ++ [m]) (t.dispatch m.bytes) := by
  cases m with
  | offer =>
    have hr : t.device.receive offer = t.device.quiet :=
      Device.receive_offer_bound h.fits h.bound
    have hdevice : (t.dispatch offer).device = t.device := by
      rw [device_dispatch, hr]
      rfl
    refine ⟨fits_dispatch h.fits _, ?_, ?_, ?_⟩
    · rw [Message.bytes, hdevice]
      exact h.bound
    · exact (dropped_dispatch_of_not (congrArg Reception.dropped hr)).trans h.dropped_eq
    · rw [Message.bytes, hdevice, Message.lastSample?_offer]
      exact h.sample_eq
  | frame n =>
    obtain ⟨hr, hdropped⟩ := Device.receive_simulated h.bound n
    have hdevice : (t.dispatch (SimulatedHost.frame n)).device =
        { t.device with sample := .simulated (.ofNat (n % 64)) } := by
      rw [device_dispatch, hr]
    refine ⟨fits_dispatch h.fits _, ?_, (dropped_dispatch_of_not hdropped).trans h.dropped_eq, ?_⟩
    · rw [Message.bytes, hdevice]
      exact h.bound
    · rw [Message.bytes, hdevice, Message.lastSample?_frame]
      intro sample hsample
      exact Option.some.inj hsample

theorem showsLast_foldl (hf : s.device.Fits controller) (messages : List Message) :
    ShowsLast s messages ((offer :: messages.map Message.bytes).foldl Session.dispatch s) := by
  induction messages using List.reverseRecOn with
  | nil => exact showsLast_offer hf
  | append_singleton messages m ih =>
    rw [List.map_append, ← List.cons_append, List.foldl_append]
    exact ih.dispatch m

end Session

namespace SimulatedHost
open Datagram (encodeRelease)

/-- After any run. The host answers requests and nothing else, with its offer. A tick sends the next
state, by the count of those sent so far, exactly when there is someone who awaits it. A session
without a layout or with one for the controller of the host, that is sent the offer and then states and
further offers, stays bound, drops nothing and shows the last state, none of which is clamped. -/
theorem host_and_session_agree {Peer : Type} [DecidableEq Peer] (past : List (Event Peer)) :
    let sent := ((start : SimulatedHost Peer).run past).1
    let h := ((start : SimulatedHost Peer).run past).2
    (∀ bytes sender, (h.next (.datagram bytes sender)).1 =
      if asks bytes then some (sender, offer) else none) ∧
    (∀ peer bytes, (h.next .tick).1 = some (peer, bytes) ↔
      Awaits past peer ∧ bytes = frame ((statesIn sent).length + 1)) ∧
    (statesIn sent).map (·.2) =
      (List.range (statesIn sent).length).map (fun n => frame (n + 1)) ∧
    (∀ peer, Opened peer sent) ∧
    (∀ n, InRange (.ofNat (n % 64))) ∧
    ∀ (s : Session) (messages : List Message),
      (s.device.pinned? = none ∨ s.device.pinned? = some .extended) →
      s.ShowsLast messages ((offer :: messages.map Message.bytes).foldl Session.dispatch s) := by
  intro sent h
  have hf : Follows past sent h := follows_run past
  exact ⟨hf.answer, hf.tick_iff, hf.numbered, opened_run past, inRange,
    fun s messages hfits => Session.showsLast_foldl hfits messages⟩

def released : List (Event Nat) :=
  [.datagram (DiscoveryRequest.encode 7) 1, .tick, .datagram encodeRelease 2, .datagram [] 3, .tick,
    .datagram (DiscoveryRequest.encode 8) 2, .datagram [] 3]

theorem host_and_session_agree_released :
    let host := (start : SimulatedHost Nat).run released
    let s := (Session.fresh .standard).withDevice
      { Device.fresh with layout? := some (.ofMapper .extended) }
    let t := [offer, frame 2, offer].foldl Session.dispatch s
    host.1 = [(1, offer), (1, frame 1), (2, offer)] ∧
    (host.2.next .tick).1 = some (2, frame 2) ∧ Awaits released 2 ∧ ¬ Awaits released 1 ∧
    s.device.pinned? = some .extended ∧ t.device.controller? = some controller ∧
    t.counters.dropped = 0 ∧ t.device.sample = .simulated 2 := by
  intro host s t
  obtain ⟨-, hticks, -, -, -, hfollows⟩ := host_and_session_agree released
  have hsent : host.1 = [(1, offer), (1, frame 1), (2, offer)] := by decide +kernel
  have htick : (host.2.next .tick).1 = some (2, frame 2) := by decide +kernel
  have hother : ¬ Awaits released 1 := by
    intro ha
    cases htick.symm.trans ((hticks 1 _).2 ⟨ha, rfl⟩)
  have hpinned : s.device.pinned? = some .extended := rfl
  have hlast := hfollows s [.frame 2, .offer] (.inr hpinned)
  exact ⟨hsent, htick, ((hticks 2 _).1 htick).1, hother, hpinned, hlast.bound, hlast.dropped_eq,
    hlast.sample_eq _ rfl⟩

end SimulatedHost
end VirtualPad
