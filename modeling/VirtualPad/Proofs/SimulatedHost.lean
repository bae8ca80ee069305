import Mathlib.Data.List.Induction
import VirtualPad.Proofs.Datagram.OfferTrip
import VirtualPad.Proofs.Datagram.StateTrip
import VirtualPad.Proofs.Session.Resume
import VirtualPad.SimulatedHost

/-!
# The simulated host

The host looks at its buffer, in which an empty datagram leaves what was there before. It does all the
same what it would do if it looked at the datagrams: who asked last and is not released gets the states,
one a frame, numbered through from the start.
-/
namespace VirtualPad
namespace SimulatedHost
open Datagram (releaseCode stateCode offerCode controlSize encodeState)

variable {Peer : Type}

def asks (bytes : List UInt8) : Bool := (DiscoveryRequest.decode bytes).isOk

def frees (bytes : List UInt8) : Bool := bytes.head? = some releaseCode

theorem asks_of_le {body : List UInt8} (h : 7 ≤ (offerCode :: body).length) :
    asks (offerCode :: body) = true := by
  obtain ⟨want, enable, _, rfl, h2⟩ :=
    Datagram.exists_bytes16 (n := 4) (Nat.le_of_succ_le_succ h)
  obtain ⟨p0, p1, p2, p3, rest, rfl, -⟩ := Datagram.exists_bytes32 (n := 0) h2
  rfl

theorem asks_of_lt {body : List UInt8} (h : (offerCode :: body).length < 7) :
    asks (offerCode :: body) = false := by
  rw [asks, DiscoveryRequest.decode, if_pos rfl]
  · rfl
  · intro want enable p0 p1 p2 p3 rest hbody
    subst hbody
    simp only [List.length_cons] at h
    omega

theorem asks_iff (bytes : List UInt8) :
    asks bytes = true ↔ bytes.head? = some offerCode ∧ 7 ≤ bytes.length := by
  cases bytes with
  | nil => simp [asks, DiscoveryRequest.decode, Except.isOk, Except.toBool]
  | cons code body =>
    by_cases hcode : code = offerCode
    · subst hcode
      rcases Nat.lt_or_ge (offerCode :: body).length 7 with h | h
      · simp only [asks_of_lt h, Nat.not_le.2 h, and_false, Bool.false_eq_true]
      · simp only [asks_of_le h, h, List.head?_cons, and_self]
    · simp [asks, DiscoveryRequest.decode, hcode, Except.isOk, Except.toBool]

theorem asks_take (bytes : List UInt8) : asks (bytes.take controlSize) = asks bytes := by
  have hsize : 7 ≤ (bytes.take controlSize).length ↔ 7 ≤ bytes.length := by
    have : controlSize = 64 := rfl
    rw [List.length_take]
    omega
  rw [Bool.eq_iff_iff, asks_iff, asks_iff, List.head?_take, if_neg (by decide), hsize]

/-! ## One datagram -/

/-- What the buffer says about a release is out of date, or there is nobody to send to. -/
def Settled (h : SimulatedHost Peer) : Prop :=
  h.buffer.head? = some releaseCode → h.target? = none

inductive Received (h : SimulatedHost Peer) (bytes : List UInt8) (sender : Peer) :
    Option (List UInt8) → Option Peer → Prop
  | release (hfrees : frees bytes = true) (hasks : asks bytes = false) :
      Received h bytes sender none none
  | request (hfrees : frees bytes = false) (hasks : asks bytes = true) :
      Received h bytes sender (some offer) (some sender)
  | nothing (hfrees : frees bytes = false) (hasks : asks bytes = false) :
      Received h bytes sender none h.target?

theorem step_receive (h : SimulatedHost Peer) (bytes : List UInt8) (sender : Peer) :
    (h.receive bytes sender).2.step = h.step := by
  simp only [receive]
  split_ifs
  · rfl
  · split <;> rfl

theorem receive_nil {h : SimulatedHost Peer} (hs : h.Settled) (sender : Peer) :
    h.receive [] sender = (none, h) := by
  by_cases hb : h.buffer.head? = some releaseCode
  · -- The release that is left in the buffer has been heard already.
    have htarget := hs hb
    cases h
    simp_all [receive]
  · simp [receive, hb, DiscoveryRequest.decode]

theorem head?_buffer {bytes : List UInt8} (hne : bytes ≠ []) (old : List UInt8) :
    (bytes.take controlSize ++ old).head? = bytes.head? := by
  obtain ⟨b, rest, rfl⟩ := List.exists_cons_of_ne_nil hne
  rfl

theorem receive_of_ne_nil (h : SimulatedHost Peer) {bytes : List UInt8} (hne : bytes ≠ [])
    (sender : Peer) :
    h.Received bytes sender (h.receive bytes sender).1 (h.receive bytes sender).2.target? ∧
      (h.receive bytes sender).2.Settled := by
  have hhead := head?_buffer hne (h.buffer.drop (bytes.take controlSize).length)
  simp only [receive, hhead]
  by_cases hfrees : bytes.head? = some releaseCode
  · have hasks : asks bytes = false := by
      rw [Bool.eq_false_iff]
      intro hasks
      cases hfrees.symm.trans ((asks_iff bytes).1 hasks).1
    rw [if_pos hfrees]
    exact ⟨.release (decide_eq_true hfrees) hasks, fun _ => rfl⟩
  · have hsettled : ∀ target? : Option Peer, Settled { h with
        buffer := bytes.take controlSize ++ h.buffer.drop (bytes.take controlSize).length, target? } :=
      fun _ hb => absurd (hhead.symm.trans hb) hfrees
    rw [if_neg hfrees]
    have hasks := asks_take bytes
    rw [asks] at hasks
    cases hd : DiscoveryRequest.decode (bytes.take controlSize) with
    | ok request =>
      rw [hd] at hasks
      exact ⟨.request (decide_eq_false hfrees) hasks.symm, hsettled _⟩
    | error e =>
      rw [hd] at hasks
      exact ⟨.nothing (decide_eq_false hfrees) hasks.symm, hsettled _⟩

theorem receive_settled {h : SimulatedHost Peer} (hs : h.Settled) (bytes : List UInt8)
    (sender : Peer) :
    h.Received bytes sender (h.receive bytes sender).1 (h.receive bytes sender).2.target? ∧
      (h.receive bytes sender).2.Settled := by
  by_cases hne : bytes = []
  · subst hne
    rw [receive_nil hs]
    exact ⟨.nothing rfl rfl, hs⟩
  · exact h.receive_of_ne_nil hne sender

/-! ## The loop -/

def frame (n : Nat) : List UInt8 :=
  encodeState 1 controller.id (Sample.simulated (.ofNat (n % 64)))

def statesIn (sent : List (Peer × List UInt8)) : List (Peer × List UInt8) :=
  sent.filter fun p => p.2.head? = some stateCode

/-- The peer has asked, and since then nobody else has and no datagram was a release. -/
def Awaits (past : List (Event Peer)) (peer : Peer) : Prop :=
  ∃ before bytes after, past = before ++ .datagram bytes peer :: after ∧ asks bytes = true ∧
    ∀ later sender, .datagram later sender ∈ after → asks later = false ∧ frees later = false

theorem run_concat (h : SimulatedHost Peer) (es : List (Event Peer)) (e : Event Peer) :
    h.run (es ++ [e]) =
      ((h.run es).1 ++ ((h.run es).2.next e).1.toList, ((h.run es).2.next e).2) := by
  induction es generalizing h with
  | nil => simp [run]
  | cons e' es ih => simp only [List.cons_append, run, ih, List.append_assoc]

theorem awaits_concat (past : List (Event Peer)) (e : Event Peer) (peer : Peer) :
    Awaits (past ++ [e]) peer ↔
      (∃ bytes, e = .datagram bytes peer ∧ asks bytes = true) ∨
      Awaits past peer ∧ ∀ bytes sender, e = .datagram bytes sender →
        asks bytes = false ∧ frees bytes = false := by
  constructor
  · rintro ⟨before, bytes, after, heq, hasks, hafter⟩
    rcases List.eq_nil_or_concat after with rfl | ⟨init, last, rfl⟩
    · obtain ⟨-, he⟩ := List.append_inj' heq rfl
      exact .inl ⟨bytes, List.cons.inj he |>.1, hasks⟩
    · rw [List.concat_eq_append, ← List.cons_append, ← List.append_assoc] at heq
      obtain ⟨hpast, he⟩ := List.append_inj' heq rfl
      obtain ⟨rfl, -⟩ := List.cons.inj he
      refine .inr ⟨⟨before, bytes, init, hpast, hasks, ?_⟩, ?_⟩
      · intro later sender hlater
        exact hafter later sender (by simp [hlater])
      · rintro later sender rfl
        exact hafter later sender (by simp)
  · rintro (⟨bytes, rfl, hasks⟩ | ⟨⟨before, bytes, after, rfl, hasks, hafter⟩, he⟩)
    · exact ⟨past, bytes, [], rfl, hasks, by simp⟩
    · refine ⟨before, bytes, after ++ [e], by simp, hasks, ?_⟩
      intro later sender hlater
      rcases List.mem_append.1 hlater with hlater | hlater
      · exact hafter later sender hlater
      · exact he later sender (List.mem_singleton.1 hlater).symm

theorem statesIn_append (sent sent' : List (Peer × List UInt8)) :
    statesIn (sent ++ sent') = statesIn sent ++ statesIn sent' :=
  List.filter_append sent sent'

theorem statesIn_answer (answered : Bool) (sender : Peer) :
    statesIn (if answered then some (sender, offer) else none : Option _).toList = [] := by
  cases answered <;> rfl

theorem statesIn_frame (target : Peer) (n : Nat) :
    statesIn [(target, frame n)] = [(target, frame n)] := rfl

theorem step_succ (n : Nat) :
    ((Int32.ofNat (n % 64) + 1) % 64 : Int32) = .ofNat ((n + 1) % 64) := by
  have hround : ∀ m < 64, ((Int32.ofNat m + 1) % 64 : Int32) = .ofNat ((m + 1) % 64) := by
    decide +kernel
  rw [hround _ (Nat.mod_lt n (by decide)), Nat.mod_add_mod]

structure Follows (past : List (Event Peer)) (sent : List (Peer × List UInt8))
    (h : SimulatedHost Peer) : Prop where
  settled : h.Settled
  target_iff : ∀ peer, h.target? = some peer ↔ Awaits past peer
  step_eq : h.step = .ofNat ((statesIn sent).length % 64)
  numbered : (statesIn sent).map (·.2) =
    (List.range (statesIn sent).length).map fun n => frame (n + 1)

theorem follows_start : Follows [] [] (start : SimulatedHost Peer) where
  settled _ := rfl
  target_iff peer := by simp [start, Awaits]
  step_eq := rfl
  numbered := rfl

variable {past : List (Event Peer)} {sent : List (Peer × List UInt8)} {h : SimulatedHost Peer}

theorem Follows.answer (hf : Follows past sent h) (bytes : List UInt8) (sender : Peer) :
    (h.next (.datagram bytes sender)).1 = if asks bytes then some (sender, offer) else none := by
  simp only [next]
  obtain ⟨hr, -⟩ := receive_settled hf.settled bytes sender
  generalize (h.receive bytes sender).1 = answer?, (h.receive bytes sender).2.target? = target?
    at hr ⊢
  cases hr with
  | release _ hasks => simp [hasks]
  | request _ hasks => simp [hasks]
  | nothing _ hasks => simp [hasks]

theorem Follows.datagram (hf : Follows past sent h) (bytes : List UInt8) (sender : Peer) :
    Follows (past ++ [.datagram bytes sender])
      (sent ++ (h.next (.datagram bytes sender)).1.toList)
      (h.next (.datagram bytes sender)).2 := by
  have hstates : statesIn (sent ++ (h.next (.datagram bytes sender)).1.toList) = statesIn sent := by
    rw [hf.answer, statesIn_append, statesIn_answer, List.append_nil]
  obtain ⟨hr, hs⟩ := receive_settled hf.settled bytes sender
  refine ⟨hs, ?_, ?_, ?_⟩
  · intro peer
    rw [awaits_concat, ← hf.target_iff]
    simp only [next, Event.datagram.injEq, and_imp]
    generalize (h.receive bytes sender).1 = answer?, (h.receive bytes sender).2.target? = target?
      at hr ⊢
    cases hr with
    | release hfrees hasks => simp [hfrees, hasks]
    | request hfrees hasks => simp [hasks]
    | nothing hfrees hasks => simp [hfrees, hasks]
  · rw [hstates]
    exact (step_receive h bytes sender).trans hf.step_eq
  · rw [hstates]
    exact hf.numbered

theorem Follows.frame_eq (hf : Follows past sent h) {target : Peer} (ht : h.target? = some target) :
    h.tick = (some (target, frame ((statesIn sent).length + 1)),
      { h with step := .ofNat (((statesIn sent).length + 1) % 64) }) := by
  simp only [tick, ht, hf.step_eq, step_succ]
  rfl

theorem Follows.tick (hf : Follows past sent h) :
    Follows (past ++ [.tick]) (sent ++ (h.next .tick).1.toList) (h.next .tick).2 := by
  have hawaits : ∀ peer, Awaits (past ++ [.tick]) peer ↔ Awaits past peer := fun peer => by
    simp [awaits_concat]
  cases ht : h.target? with
  | none =>
    have htick : h.next .tick = (none, h) := by simp only [next, SimulatedHost.tick, ht]
    rw [htick, Option.toList_none, List.append_nil]
    exact ⟨hf.settled, fun peer => (hf.target_iff peer).trans (hawaits peer).symm, hf.step_eq,
      hf.numbered⟩
  | some target =>
    have htick : h.next .tick = _ := hf.frame_eq ht
    have hlength : (statesIn sent ++ [(target, frame ((statesIn sent).length + 1))]).length =
        (statesIn sent).length + 1 := List.length_append
    rw [htick, Option.toList_some]
    refine ⟨hf.settled, fun peer => (hf.target_iff peer).trans (hawaits peer).symm, ?_, ?_⟩
    · rw [statesIn_append, statesIn_frame, hlength]
    · rw [statesIn_append, statesIn_frame, hlength, List.map_append, hf.numbered,
        List.range_succ, List.map_append]
      rfl

theorem follows_run (past : List (Event Peer)) :
    Follows past ((start : SimulatedHost Peer).run past).1 (start.run past).2 := by
  induction past using List.reverseRecOn with
  | nil => exact follows_start
  | append_singleton past e ih =>
    rw [run_concat]
    cases e with
    | datagram bytes sender => exact ih.datagram bytes sender
    | tick => exact ih.tick

theorem Follows.tick_iff (hf : Follows past sent h) (peer : Peer) (bytes : List UInt8) :
    (h.next .tick).1 = some (peer, bytes) ↔
      Awaits past peer ∧ bytes = frame ((statesIn sent).length + 1) := by
  rw [← hf.target_iff]
  cases ht : h.target? with
  | none => simp [next, SimulatedHost.tick, ht]
  | some target =>
    have htick : h.next .tick = _ := hf.frame_eq ht
    simp only [htick, Option.some.injEq, Prod.mk.injEq, eq_comm (a := bytes)]

end SimulatedHost
end VirtualPad
