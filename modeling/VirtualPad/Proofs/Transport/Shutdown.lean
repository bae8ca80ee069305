import VirtualPad.Proofs.Device.Receive
import VirtualPad.Session.Run

/-!
# Release notices

Stopping looks once whether a controller is bound, and the loop goes on taking datagrams until it is
cancelled. A release notice is therefore sent exactly when a controller was bound at that look, and
one that is bound at the end goes without a notice only if it was offered after it.
-/
namespace VirtualPad

namespace Device

def hearAll (d : Device) (datagrams : List (List UInt8)) : Device :=
  datagrams.foldl (fun d bytes => (d.receive bytes).device) d

theorem hearAll_append (d : Device) (early late : List (List UInt8)) :
    d.hearAll (early ++ late) = (d.hearAll early).hearAll late :=
  List.foldl_append

theorem bound_of_receive {d : Device} {bytes : List UInt8} {c : Controller}
    (h : (d.receive bytes).device.controller? = some c) :
    d.controller? = some c ∨ Datagram.decode bytes = .ok (.offer (some c)) := by
  simp only [receive] at h
  cases hb : Datagram.decode bytes with
  | error e =>
    rw [hb] at h
    exact .inl h
  | ok datagram =>
    rw [hb] at h
    cases datagram with
    | offer c? =>
      cases c? with
      | none => cases h
      | some e =>
        simp only [hear, hearOffer] at h
        rcases d.bind_cases e with ⟨-, hr⟩ | ⟨-, -, hr⟩ | ⟨-, -, hr⟩ <;> rw [hr] at h
        · cases h
        · exact .inl h
        · cases h
          exact .inr rfl
    | state ack id s =>
      simp only [hear] at h
      rcases d.hearState_cases ack id s with ⟨-, hr⟩ | ⟨e, -, ⟨-, hr⟩ | ⟨-, hr⟩⟩ <;> rw [hr] at h
      · exact .inl h
      · exact .inl h
      · cases h
    | release => cases h

theorem bound_of_hearAll {d : Device} {datagrams : List (List UInt8)} {c : Controller}
    (h : (d.hearAll datagrams).controller? = some c) :
    d.controller? = some c ∨
      ∃ bytes ∈ datagrams, Datagram.decode bytes = .ok (.offer (some c)) := by
  induction datagrams generalizing d with
  | nil => exact .inl h
  | cons bytes rest ih =>
    rcases ih h with hd | ⟨late, hmem, hc⟩
    · rcases bound_of_receive hd with hd | hc
      · exact .inl hd
      · exact .inr ⟨bytes, List.mem_cons_self, hc⟩
    · exact .inr ⟨late, List.mem_cons_of_mem _ hmem, hc⟩

end Device

namespace Shutdown

def Action.bytes? : Action → Option (List UInt8)
  | .deliver bytes => some bytes
  | _ => none

def taken (actions : List Action) : List (List UInt8) := actions.filterMap Action.bytes?

theorem taken_cons (a : Action) (actions : List Action) :
    taken (a :: actions) = taken [a] ++ taken actions := by
  simp only [taken, List.filterMap_cons, List.filterMap_nil]
  cases a.bytes? <;> rfl

/-- Notices that are decided on and not yet sent. -/
def Stage.owed : Stage → Nat
  | .checked bound => bound.toNat
  | _ => 0

/-- What one step leaves when it is not the check: the loop has taken its datagram, and what is owed
has been sent or still is owed. -/
structure Passes (s : State) (datagrams : List (List UInt8)) (s' : State) : Prop where
  device_eq : s'.device = s.device.hearAll datagrams
  owed_eq : s'.notices + s'.stage.owed = s.notices + s.stage.owed
  running_iff : s'.stage = .running ↔ s.stage = .running

theorem step_cases {s s' : State} {a : Action} (h : step? s a = some s') :
    (a = .check ∧ s.stage = .running ∧ s' = { s with stage := .checked s.device.isBound }) ∨
    (a ≠ .check ∧ Passes s (taken [a]) s') := by
  obtain ⟨d, stage, n⟩ := s
  cases a with
  | deliver bytes =>
    refine .inr ⟨nofun, ?_⟩
    cases stage <;> cases h <;> exact ⟨rfl, rfl, .rfl⟩
  | check =>
    cases stage <;> cases h
    exact .inl ⟨rfl, rfl, rfl⟩
  | notify =>
    refine .inr ⟨nofun, ?_⟩
    cases stage with
    | checked bound => cases bound <;> cases h <;> exact ⟨rfl, rfl, nofun, nofun⟩
    | _ => cases h
  | cancel =>
    refine .inr ⟨nofun, ?_⟩
    cases stage <;> cases h
    exact ⟨rfl, rfl, nofun, nofun⟩
  | finish =>
    refine .inr ⟨nofun, ?_⟩
    cases stage <;> cases h
    exact ⟨rfl, rfl, nofun, nofun⟩
  | join =>
    refine .inr ⟨nofun, ?_⟩
    cases stage <;> cases h
    exact ⟨rfl, rfl, nofun, nofun⟩

theorem run?_cons_eq_some {s s' : State} {a : Action} {actions : List Action} :
    run? s (a :: actions) = some s' ↔ ∃ t, step? s a = some t ∧ run? t actions = some s' :=
  Option.bind_eq_some_iff

theorem passes_run {s s' : State} {actions : List Action} (h : run? s actions = some s')
    (hs : s.stage ≠ .running) : .check ∉ actions ∧ Passes s (taken actions) s' := by
  induction actions generalizing s with
  | nil =>
    cases h
    exact ⟨List.not_mem_nil, rfl, rfl, .rfl⟩
  | cons a actions ih =>
    obtain ⟨t, hstep, hrun⟩ := run?_cons_eq_some.1 h
    rcases step_cases hstep with ⟨-, hr, -⟩ | ⟨ha, hp⟩
    · exact absurd hr hs
    -- There is one check, so every later step passes.
    · obtain ⟨hrest, hq⟩ := ih hrun (mt hp.running_iff.1 hs)
      refine ⟨?_, ?_, hq.owed_eq.trans hp.owed_eq, hq.running_iff.trans hp.running_iff⟩
      · rintro (_ | ⟨_, hmem⟩)
        · exact ha rfl
        · exact hrest hmem
      · rw [taken_cons, Device.hearAll_append, ← hp.device_eq, hq.device_eq]

/-- A run that has left the first stage is cut by its check. -/
theorem checked_run {s s' : State} {actions : List Action} (h : run? s actions = some s')
    (hs : s.stage = .running) (hs' : s'.stage ≠ .running) :
    ∃ early late, actions = early ++ .check :: late ∧ .check ∉ early ++ late ∧
      s'.device = (s.device.hearAll (taken early)).hearAll (taken late) ∧
      s'.notices + s'.stage.owed =
        s.notices + (s.device.hearAll (taken early)).isBound.toNat := by
  induction actions generalizing s with
  | nil =>
    cases h
    exact absurd hs hs'
  | cons a actions ih =>
    obtain ⟨t, hstep, hrun⟩ := run?_cons_eq_some.1 h
    rcases step_cases hstep with ⟨rfl, -, rfl⟩ | ⟨ha, hp⟩
    · obtain ⟨hrest, hq⟩ := passes_run hrun nofun
      exact ⟨[], actions, rfl, hrest, hq.device_eq, hq.owed_eq⟩
    · obtain ⟨early, late, rfl, hnot, hd, hn⟩ := ih hrun (hp.running_iff.2 hs)
      have howed : t.notices = s.notices := by
        have := hp.owed_eq
        rwa [hs, hp.running_iff.2 hs] at this
      have heard : t.device.hearAll (taken early) = s.device.hearAll (taken (a :: early)) := by
        rw [taken_cons, Device.hearAll_append, ← hp.device_eq]
      rw [heard] at hd hn
      rw [howed] at hn
      refine ⟨a :: early, late, rfl, ?_, hd, hn⟩
      rintro (_ | ⟨_, hmem⟩)
      · exact ha rfl
      · exact hnot hmem

theorem run?_joined {s s' : State} {actions : List Action} (hs : s.stage = .joined)
    (h : run? s actions = some s') : s' = s := by
  obtain ⟨d, stage, n⟩ := s
  subst hs
  cases actions with
  | nil =>
    cases h
    rfl
  | cons a actions =>
    obtain ⟨t, hstep, -⟩ := run?_cons_eq_some.1 h
    cases a <;> cases hstep

end Shutdown

namespace Session

theorem listening_deposit (s : Session) (h? : Option Handle) :
    (s.deposit h?).listening = s.listening := by
  cases h? with
  | none => rfl
  | some h =>
    simp only [deposit]
    split_ifs <;> rfl

theorem listening_dispatch (s : Session) (bytes : List UInt8) :
    (s.dispatch bytes).listening = s.listening := by
  simp only [dispatch]
  split_ifs <;> exact listening_deposit _ _

theorem not_listening_next {s : Session} (hs : s.listening = false) {e : Event}
    (he : ∀ offers, e ≠ .enumerate offers) : (s.next e).2.listening = false := by
  cases e with
  | dispatch bytes => exact (s.listening_dispatch bytes).trans hs
  | receive bytes size => exact (listening_dispatch _ _).trans hs
  | enumerate offers => exact absurd rfl (he offers)
  | read => exact (listening_deposit _ _).trans hs
  | release => rfl
  | _ => exact hs

theorem not_listening_after {s : Session} (hs : s.listening = false) {es : List Event}
    (he : ∀ offers, .enumerate offers ∉ es) : (s.after es).listening = false := by
  induction es generalizing s with
  | nil => exact hs
  | cons e es ih =>
    refine ih (not_listening_next hs fun offers h => he offers ?_) fun offers h => he offers ?_
    · exact h ▸ List.mem_cons_self
    · exact List.mem_cons_of_mem _ h

/-- One notice is sent at most, and none without a loop of the device's own. -/
theorem notices_release (s : Session) :
    s.release.1 = (s.listening && s.network.reachable && s.device.isBound).toNat := by
  rw [release, Shutdown.notices_eq]
  cases s.listening && s.network.reachable <;> cases s.device.isBound <;> rfl

theorem notices_release_again (s : Session) {es : List Event}
    (he : ∀ offers, .enumerate offers ∉ es) : (s.release.2.after es).release.1 = 0 := by
  have hs : (s.release.2.after es).listening = false := not_listening_after rfl he
  rw [notices_release, hs]
  rfl

end Session

namespace Shutdown

/-- A notice is sent exactly for what the check sees. A controller that is bound at the end has its
notice unless it was offered after the check, and nothing sends another one. -/
theorem noticed_unless_offered_late {d : Device} {actions : List Action} {s : State}
    (h : run? (start d) actions = some s) (hs : s.stage = .joined) :
    (∃ early late, actions = early ++ .check :: late ∧ .check ∉ early ++ late ∧
      s.device = (d.hearAll (taken early)).hearAll (taken late) ∧
      s.notices = (d.hearAll (taken early)).isBound.toNat ∧
      ∀ c, s.device.controller? = some c → s.notices = 1 ∨
        ∃ bytes ∈ taken late, Datagram.decode bytes = .ok (.offer (some c))) ∧
    (∀ more s', run? s more = some s' → s' = s) ∧
    ∀ (t : Session) (es : List Session.Event), (∀ offers, .enumerate offers ∉ es) →
      (t.release.2.after es).release.1 = 0 := by
  obtain ⟨early, late, hcut, hnot, hd, hn⟩ := checked_run h rfl (by rw [hs]; nofun)
  rw [hs] at hn
  have hn' : s.notices = (d.hearAll (taken early)).isBound.toNat := hn.trans (Nat.zero_add _)
  refine ⟨⟨early, late, hcut, hnot, hd, hn', fun c hc => ?_⟩, fun more s' => run?_joined hs,
    fun t es => t.notices_release_again⟩
  rw [hd] at hc
  rcases Device.bound_of_hearAll hc with hearly | hlate
  · have hb : (d.hearAll (taken early)).isBound = true := Option.isSome_of_eq_some hearly
    exact .inl (by rw [hn', hb]; rfl)
  · exact .inr hlate

def offer : List UInt8 := Datagram.encodeOffer (some ⟨3, .standard, "Pad"⟩)

def bound : Device := { Device.fresh with controller? := some ⟨3, .standard, "Pad"⟩ }

def offeredEarly : List Action :=
  [.deliver [], .deliver offer, .check, .deliver offer, .notify, .cancel, .finish, .join]

theorem noticed_unless_offered_late_early :
    run? (start .fresh) offeredEarly = some ⟨bound, .joined, 1⟩ ∧
    (∃ early late, offeredEarly = early ++ .check :: late ∧ .check ∉ early ++ late ∧
      1 = (Device.fresh.hearAll (taken early)).isBound.toNat) ∧
    (∀ more s', run? ⟨bound, .joined, 1⟩ more = some s' → s' = ⟨bound, .joined, 1⟩) ∧
    let t := (Session.fresh .standard).after [.enumerate [offer]]
    t.release.1 = 1 ∧ (t.release.2.after [.dispatch offer]).release.1 = 0 := by
  have hrun : run? (start .fresh) offeredEarly = some ⟨bound, .joined, 1⟩ := by decide
  obtain ⟨⟨early, late, hcut, hnot, -, hn, -⟩, hmore, hagain⟩ :=
    noticed_unless_offered_late hrun rfl
  refine ⟨hrun, ⟨early, late, hcut, hnot, hn⟩, hmore, by decide, hagain _ _ ?_⟩
  simp

def offeredLate : List Action :=
  [.check, .deliver offer, .notify, .cancel, .finish, .join]

/-- Then a controller is bound at the end, and no notice is sent. -/
theorem late_offer_unnoticed :
    ∃ s, run? (start .fresh) offeredLate = some s ∧ s.stage = .joined ∧
      s.device.isBound = true ∧ s.notices = 0 :=
  ⟨⟨bound, .joined, 0⟩, by decide, rfl, rfl, rfl⟩

end Shutdown
end VirtualPad
