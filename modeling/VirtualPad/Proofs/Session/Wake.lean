import Mathlib.Data.List.Induction
import VirtualPad.Proofs.Session.Turn

/-!
# Wake-ups

The handle that the device is acquired with is woken for a new sample and for a read that finds
changes, and no other handle ever is. Whatever a read would find has been signalled.
-/
namespace VirtualPad

namespace Device

abbrev Holds (d : Device) (h : Handle) : Prop := d.acquired = true ∧ d.handle? = some h

variable {d : Device} {h : Handle}

theorem wake?_eq_some_iff : d.wake? = some h ↔ d.Holds h := by
  simp only [wake?, Holds]
  split_ifs with ha <;> simp [ha]

theorem wake?_eq_none_of_not_acquired (ha : d.acquired = false) : d.wake? = none := by
  simp [wake?, ha]

theorem wake?_receive (d : Device) (bytes : List UInt8) :
    (d.receive bytes).wake? = some h ↔ d.wake? = some h ∧ d.RenewedOn bytes := by
  rcases d.receive_cases bytes with ⟨ht, -, hw⟩ | ⟨-, hr, -, hw⟩ | ⟨-, hr, -, hw⟩
  · have hn : ¬ d.RenewedOn bytes := fun hr => by cases hr.not_turnsOn.symm.trans ht
    simp [hw, hn]
  · simp [hw, hr]
  · simp [hw, hr]

theorem wake?_pin (d : Device) : d.pin.2.wake? = d.wake? := by
  simp only [pin]
  split
  · rfl
  · split_ifs <;> rfl

theorem wake?_acquire (d : Device) (h : Handle) :
    ((d.acquire h).2.wake? = some h ∧ (d.acquire h).1 = .ok () ∧ d.isBound = true) ∨
    ((d.acquire h).2.wake? = none ∧ d.isBound = false) ∨
    ((d.acquire h).2 = d ∧ d.layout? = none) := by
  obtain hc | ⟨c, hc⟩ := Option.eq_none_or_eq_some d.controller?
  · rw [acquire_unbound hc]
    exact .inr (.inl ⟨rfl, by simp [isBound, hc]⟩)
  · obtain hl | ⟨l, hl⟩ := Option.eq_none_or_eq_some d.layout?
    · rw [acquire_unpinned hc hl]
      exact .inr (.inr ⟨rfl, hl⟩)
    · rw [acquire_pinned hc hl]
      exact .inl ⟨rfl, rfl, by simp [isBound, hc]⟩

theorem wake?_calibrate (d : Device) (index : Nat)
    (change : Calibration → Except DeviceError Calibration) :
    (d.calibrate index change).2.wake? = d.wake? := by
  rcases calibrate_cases d index change with ⟨e, hr⟩ | ⟨l, c, k, k', -, -, -, -, hr⟩ <;> rw [hr]
  rfl

end Device

namespace Session

variable {s : Session} {e : Event} {h : Handle}

/-! ## Permits -/

theorem mem_permits_deposit (s : Session) (h? : Option Handle) :
    h ∈ (s.deposit h?).permits ↔ h? = some h ∨ h ∈ s.permits := by
  cases h? with
  | none => simp [deposit]
  | some h' =>
    simp only [deposit, Option.some.injEq]
    split_ifs with hm
    · constructor
      · exact .inr
      · rintro (rfl | h)
        · exact hm
        · exact h
    · rw [List.mem_cons, eq_comm]

theorem nodup_permits_deposit (hs : s.permits.Nodup) (h? : Option Handle) :
    (s.deposit h?).permits.Nodup := by
  cases h? with
  | none => exact hs
  | some h =>
    simp only [deposit]
    split_ifs with hm
    · exact hs
    · exact List.nodup_cons.2 ⟨hm, hs⟩

theorem permits_deposit_congr {t : Session} (ht : t.permits = s.permits) (h? : Option Handle) :
    (t.deposit h?).permits = (s.deposit h?).permits := by
  cases h? with
  | none => exact ht
  | some h =>
    simp only [deposit, ht]
    split_ifs
    · exact ht
    · rfl

theorem permits_hearOffers {s : Session} (hs : s.device.acquired = false)
    (offers : List (List UInt8)) : (s.hearOffers offers).permits = s.permits := by
  induction offers generalizing s with
  | nil => rfl
  | cons bytes rest ih =>
    simp only [hearOffers]
    split_ifs with hb
    · rfl
    · obtain ⟨c?, sample, published, hf⟩ := s.device.receive_frame (bytes.take Datagram.controlSize)
      -- Nobody is woken while the device is not acquired.
      have hw : (s.device.receive (bytes.take Datagram.controlSize)).wake? = none := by
        rw [Option.eq_none_iff_forall_ne_some]
        intro h hw
        rw [Device.wake?_receive, Device.wake?_eq_none_of_not_acquired hs] at hw
        cases hw.1
      rw [ih (by rw [device_accept, hf]; exact hs), accept, hw]
      rfl

theorem permits_next (s : Session) (he : ∀ h, e ≠ .takePermit h) :
    (s.next e).2.permits = (s.deposit (s.next e).1.wake?).permits := by
  have hdispatch : ∀ (t : Session) (bytes : List UInt8), t.permits = s.permits →
      (t.dispatch bytes).permits = (s.deposit (t.device.receive bytes).wake?).permits := by
    intro t bytes ht
    have hp : (t.accept (t.device.receive bytes)).permits =
        (s.deposit (t.device.receive bytes).wake?).permits := by
      rw [accept]
      apply permits_deposit_congr
      exact ht
    simp only [dispatch]
    split_ifs <;> exact hp
  cases e with
  | dispatch bytes => exact hdispatch s bytes rfl
  | receive bytes size =>
    exact hdispatch { s with counters.received := s.counters.received + 1 } (bytes.take size) rfl
  | enumerate offers =>
    simp only [next]
    rcases s.enumerate_cases offers with ⟨hr, -⟩ | ⟨ha, hr, -⟩ <;> rw [hr]
    · rfl
    · exact permits_hearOffers (s := { s with listening := true }) ha _
  | read =>
    simp only [next, read]
    apply permits_deposit_congr
    rfl
  | takePermit h => exact absurd rfl (he h)
  | _ => rfl

theorem mem_permits_next (s : Session) (e : Event) :
    h ∈ (s.next e).2.permits ↔
      (s.next e).1.wake? = some h ∨ h ∈ s.permits ∧ e ≠ .takePermit h := by
  by_cases he : ∃ h', e = .takePermit h'
  · obtain ⟨h', rfl⟩ := he
    simp only [next, Outcome.quiet, takePermit, List.mem_filter, decide_eq_true_eq, reduceCtorEq,
      false_or, ne_eq, Event.takePermit.injEq]
    rw [eq_comm]
  · have hne : ∀ h', e ≠ .takePermit h' := fun h' he' => he ⟨h', he'⟩
    rw [permits_next s hne, mem_permits_deposit]
    simp [hne h]

theorem nodup_permits_next (hs : s.permits.Nodup) (e : Event) : (s.next e).2.permits.Nodup := by
  by_cases he : ∃ h, e = .takePermit h
  · obtain ⟨h, rfl⟩ := he
    exact hs.filter _
  · rw [permits_next s fun h he' => he ⟨h, he'⟩]
    exact nodup_permits_deposit hs _

theorem nodup_permits_run (hs : s.permits.Nodup) (es : List Event) :
    (s.after es).permits.Nodup := by
  induction es generalizing s with
  | nil => exact hs
  | cons e es ih => exact ih (nodup_permits_next hs e)

theorem wake?_next_iff (s : Session) (e : Event) :
    (s.next e).1.wake? = some h ↔ s.device.Holds h ∧
      (s.Renews e ∨ e = .read ∧ ∃ k, 0 < k ∧ (s.next e).1.read? = some (.updated k)) := by
  rw [← Device.wake?_eq_some_iff]
  cases hb : e.bytes? with
  | some bytes =>
    have he : e ≠ .read := by
      rintro rfl
      cases hb
    simp [(s.next_of_bytes hb).1, Outcome.ofWake, Device.wake?_receive, Renews, hb, he]
  | none =>
    have hn : ¬ s.Renews e := by
      rintro ⟨bytes, hy, -⟩
      cases hb.symm.trans hy
    by_cases he : e = .read
    · subst he
      rcases s.next_read_cases with ⟨hu, -, hw, -⟩ | ⟨l, -, hu, -, hw, -⟩
      · simp [hw, hu, hn]
      · rw [hw, hu]
        simp only [hn, false_or, true_and, Option.some.injEq, ReadOutcome.updated.injEq]
        split_ifs with hempty
        · simp [hempty]
        · simp [List.length_pos_iff, hempty]
    · have hw : (s.next e).1.wake? = none := by
        cases e with
        | dispatch => cases hb
        | receive => cases hb
        | read => exact absurd rfl he
        | _ => rfl
      simp [hw, hn, he]

/-! ## Handles that are let go -/

def registers (s : Session) (h : Handle) : Event → Bool
  | .acquire h' => h' = h && (s.acquire h').1.isOk
  | _ => false

def Drops (s : Session) (h : Handle) : Event → Prop
  | .acquire h' => h' ≠ h ∨ s.device.isBound = false
  | .unacquire => True
  | .release => True
  | _ => False

theorem not_holds_of_drops (hd : s.device.Coherent) (h' : s.Drops h e) :
    (s.next e).2.device.wake? ≠ some h := by
  cases e with
  | acquire handle =>
    change (s.device.acquire handle).2.wake? ≠ some h
    rcases s.device.wake?_acquire handle with ⟨hw, -, hb⟩ | ⟨hw, -⟩ | ⟨hw, hl⟩
    · rcases h' with hne | hn
      · rw [hw]
        exact fun he => hne (Option.some.inj he)
      · cases hb.symm.trans hn
    · simp [hw]
    · -- Without a layout nobody has acquired the device.
      rw [hw, Ne, Device.wake?_eq_some_iff]
      rintro ⟨ha, -⟩
      obtain ⟨l, hl'⟩ := hd.pinned_of_acquired ha
      cases hl.symm.trans hl'
  | unacquire => exact fun he => by cases he
  | release => exact fun he => by cases he
  | _ => cases h'

theorem wake?_device_next (s : Session) (e : Event) :
    (s.next e).2.device.wake? = s.device.wake? ∨ (s.next e).2.device.wake? = none ∨
    ∃ h, s.registers h e = true ∧ (s.next e).2.device.wake? = some h := by
  have hbytes : ∀ bytes, e.bytes? = some bytes →
      (s.next e).2.device.wake? = s.device.wake? := by
    intro bytes hb
    obtain ⟨c?, sample, published, hf⟩ := s.device.receive_frame bytes
    rw [(s.next_of_bytes hb).2.1, hf]
    rfl
  cases e with
  | dispatch bytes => exact .inl (hbytes bytes rfl)
  | receive bytes size => exact .inl (hbytes _ rfl)
  | fail => exact .inl rfl
  | enumerate offers =>
    simp only [next]
    rcases s.enumerate_cases offers with ⟨hr, -⟩ | ⟨ha, hr, -⟩ <;> rw [hr]
    · exact .inl rfl
    · obtain ⟨c?, sample, published, hf⟩ :=
        hearOffers_frame { s with listening := true } (s.network.through offers)
      left
      change Device.wake? (Device.pin _).2 = _
      rw [Device.wake?_pin, hf]
      rfl
  | pin => exact .inl s.device.wake?_pin
  | acquire handle =>
    rcases s.device.wake?_acquire handle with ⟨hw, ho, -⟩ | ⟨hw, -⟩ | ⟨hw, -⟩
    · refine .inr (.inr ⟨handle, ?_, hw⟩)
      simp [registers, acquire, ho, Except.isOk, Except.toBool]
    · exact .inr (.inl hw)
    · exact .inl (congrArg Device.wake? hw)
  | unacquire => exact .inr (.inl rfl)
  | read =>
    rcases s.next_read_cases with ⟨-, -, -, hs⟩ | ⟨l, -, -, -, -, hs⟩ <;> rw [hs]
    · exact .inl rfl
    · exact .inl rfl
  | setDeadzone index points =>
    change (s.device.setDeadzone index points).2.wake? = _ ∨ _
    exact .inl (s.device.wake?_calibrate index _)
  | setSaturation index points =>
    change (s.device.setSaturation index points).2.wake? = _ ∨ _
    exact .inl (s.device.wake?_calibrate index _)
  | release => exact .inr (.inl rfl)
  | takePermit handle => exact .inl rfl

theorem not_holds_next (hs : s.device.wake? ≠ some h) (he : s.registers h e = false) :
    (s.next e).2.device.wake? ≠ some h := by
  rcases s.wake?_device_next e with hw | hw | ⟨h', hr, hw⟩ <;> rw [hw]
  · exact hs
  · simp
  · rintro heq
    cases heq
    cases hr.symm.trans he

theorem silent_run (hs : s.device.wake? ≠ some h) {es : List Event}
    (hes : Along (fun s e => s.registers h e = false) s es) :
    (∀ o ∈ (s.run es).1, o.wake? ≠ some h) ∧ (h ∈ (s.after es).permits → h ∈ s.permits) := by
  induction es generalizing s with
  | nil => exact ⟨nofun, id⟩
  | cons e es ih =>
    obtain ⟨he, hes⟩ := hes
    have hw : (s.next e).1.wake? ≠ some h := by
      rw [Ne, wake?_next_iff, ← Device.wake?_eq_some_iff]
      exact fun hw => hs hw.1
    obtain ⟨hrest, hpermits⟩ := ih (not_holds_next hs he) hes
    refine ⟨?_, ?_⟩
    · intro o ho
      rcases List.mem_cons.1 ho with rfl | ho
      · exact hw
      · exact hrest o ho
    · intro hm
      rcases (mem_permits_next s e).1 (hpermits hm) with hy | ⟨hy, -⟩
      · exact absurd hy hw
      · exact hy

/-! ## Changes that wait -/

def Settled (h : Handle) (s : Session) (e : Event) : Prop :=
  s.turns e = false ∧ (s.next e).2.device.layout? = s.device.layout? ∧
    (s.next e).2.device.Holds h

/-- A permit of the handle was taken, and the sample has not been renewed since. -/
def TakenSince (s : Session) (h : Handle) (es : List Event) : Prop :=
  ∃ a b, es = a ++ .takePermit h :: b ∧ h ∈ (s.after a).permits ∧
    Along (fun s e => ¬ s.Renews e) (s.after (a ++ [.takePermit h])) b

theorem TakenSince.concat {es : List Event} (ht : s.TakenSince h es)
    (he : ¬ (s.after es).Renews e) : s.TakenSince h (es ++ [e]) := by
  obtain ⟨a, b, rfl, hm, hb⟩ := ht
  refine ⟨a, b ++ [e], by simp, hm, along_concat.2 ⟨hb, ?_⟩⟩
  rwa [← after_append, List.append_assoc, List.singleton_append]

variable {l : Layout}

/-- A read would find nothing, or what it would find has been signalled. -/
def Signalled (l : Layout) (h : Handle) (s : Session) (es : List Event) : Prop :=
  (s.after es).device.published = .ofSample l (s.after es).device.sample ∨
    h ∈ (s.after es).permits ∨ s.TakenSince h es

theorem published_next_of_not_renews (hd : s.device.Coherent) (hl : s.device.layout? = some l)
    (ht : s.turns e = false) (hr : ¬ s.Renews e)
    (hp : s.device.published = .ofSample l s.device.sample) :
    (s.next e).2.device.published = .ofSample l (s.next e).2.device.sample := by
  by_cases he : e = .read
  · subst he
    rcases s.next_read_cases with ⟨-, -, -, hs⟩ | ⟨l', hl', -, -, -, hs⟩
    · rw [hs]
      exact hp
    · cases hl.symm.trans hl'
      rw [hs]
  · have hsame := sameTraffic_next hd he ht hr
    rw [hsame.published, hsame.sample]
    exact hp

theorem Signalled.next {es : List Event} (hd : (s.after es).device.Coherent)
    (hl : (s.after es).device.layout? = some l) (hh : (s.after es).device.Holds h)
    (ht : (s.after es).turns e = false) (hs : Signalled l h s es) :
    Signalled l h s (es ++ [e]) := by
  rw [Signalled, after_concat]
  by_cases hr : (s.after es).Renews e
  · have hw := (next_of_renews hr).2.trans (Device.wake?_eq_some_iff.2 hh)
    exact .inr (.inl ((mem_permits_next _ e).2 (.inl hw)))
  · rcases hs with hp | hm | htaken
    · exact .inl (published_next_of_not_renews hd hl ht hr hp)
    · by_cases he : e = .takePermit h
      · subst he
        exact .inr (.inr ⟨es, [], rfl, hm, trivial⟩)
      · exact .inr (.inl ((mem_permits_next _ e).2 (.inr ⟨hm, he⟩)))
    · exact .inr (.inr (htaken.concat hr))

theorem signalled_run (hd : s.device.Coherent) (hl : s.device.layout? = some l)
    (hh : s.device.Holds h) (hp : s.device.published = .ofSample l s.device.sample)
    {es : List Event} (hes : Along (Settled h) s es) :
    (s.after es).device.layout? = some l ∧ (s.after es).device.Holds h ∧ Signalled l h s es := by
  induction es using List.reverseRecOn with
  | nil => exact ⟨hl, hh, .inl hp⟩
  | append_singleton es e ih =>
    obtain ⟨hes, ht, hlayout, hholds⟩ := along_concat.1 hes
    obtain ⟨hl, hh, hs⟩ := ih hes
    have hnext := hs.next (coherent_run hd es) hl hh ht
    rw [after_concat]
    exact ⟨hlayout.trans hl, hholds, hnext⟩

theorem signalled_of_changes (hd : s.device.Coherent) {k changed : Nat}
    (hread : (s.next .read).1.read? = some (.updated k))
    (hholds : (s.next .read).2.device.Holds h) {es : List Event}
    (hes : Along (Settled h) (s.next .read).2 es)
    (hchanged : (((s.next .read).2.after es).next .read).1.read? = some (.updated changed))
    (hpos : 0 < changed) :
    h ∈ ((s.next .read).2.after es).permits ∨ (s.next .read).2.TakenSince h es := by
  obtain ⟨l, -, hl, hsample, hp⟩ := published_next_read hread
  rw [← hsample] at hp
  have hdread : (s.next .read).2.device.Coherent := Device.keep_of_steps .step (next_steps s _) hd
  obtain ⟨hle, -, hsame | hsignalled⟩ := signalled_run hdread hl hholds hp hes
  · -- What is published is what a read finds.
    rcases next_read_cases ((s.next .read).2.after es) with ⟨hn, -⟩ | ⟨l', hl', hr, -⟩
    · exact absurd hchanged (hn changed)
    · cases hle.symm.trans hl'
      rw [hr, hsame, Device.changes_self] at hchanged
      cases hchanged
      exact absurd hpos (Nat.lt_irrefl 0)
  · exact hsignalled

/-- Of any run, and any handle `h`. It keeps at most one permit, and is woken exactly for a sample
that is renewed or a read that finds changes while the device is acquired with it. Once it is let go
it gets no permit until it is registered again. From a read on that published, while nothing but the
sample changes, what another read would find has been signalled. -/
theorem woken_for_changes (n : Network) (pre : List Event) (h : Handle) :
    let s := (fresh n).after pre
    s.permits.Nodup ∧
    (∀ e,
      ((s.next e).1.wake? = some h ↔ s.device.Holds h ∧
        (s.Renews e ∨ e = .read ∧ ∃ k, 0 < k ∧ (s.next e).1.read? = some (.updated k))) ∧
      (h ∈ (s.next e).2.permits ↔
        (s.next e).1.wake? = some h ∨ h ∈ s.permits ∧ e ≠ .takePermit h)) ∧
    (∀ e es, s.Drops h e → Along (fun s e => s.registers h e = false) (s.next e).2 es →
      (∀ o ∈ ((s.next e).2.run es).1, o.wake? ≠ some h) ∧
      (h ∈ ((s.next e).2.after es).permits → h ∈ (s.next e).2.permits)) ∧
    (∀ k es changed, (s.next .read).1.read? = some (.updated k) →
      let t := (s.next .read).2
      t.device.Holds h → Along (Settled h) t es →
      ((t.after es).next .read).1.read? = some (.updated changed) → 0 < changed →
      h ∈ (t.after es).permits ∨ t.TakenSince h es) := by
  have hd := coherent_run (s := fresh n) .fresh pre
  refine ⟨?_, ?_, ?_, ?_⟩
  · exact nodup_permits_run (s := fresh n) List.nodup_nil pre
  · exact fun e => ⟨wake?_next_iff _ e, mem_permits_next _ e⟩
  · intro e es hdrops hes
    exact silent_run (not_holds_of_drops hd hdrops) hes
  · intro k es changed hread t hholds hes hchanged hpos
    exact signalled_of_changes hd hread hholds hes hchanged hpos

def waiting : List Event :=
  [.dispatch (Datagram.encodeOffer (some ⟨1, .standard, "pad"⟩)), .enumerate [], .acquire 7,
    .dispatch (Datagram.encodeState 1 1 ⟨3, 2, 100, 0, 0, -5⟩)]

def movedOn : List Event :=
  [.takePermit 7, .dispatch (Datagram.encodeState 1 1 ⟨0, 8, 400, 0, 0, 0⟩),
    .dispatch (Datagram.encodeState 1 1 ⟨0, 8, 400, 0, 0, 0⟩)]

theorem woken_for_changes_waiting :
    let s := (fresh .standard).after waiting
    let t := (s.next .read).2
    (s.next .read).1.read? = some (.updated 7) ∧ t.device.Holds 7 ∧ Along (Settled 7) t movedOn ∧
    ((t.after movedOn).next .read).1.read? = some (.updated 5) ∧
    (7 ∈ (t.after movedOn).permits ∨ t.TakenSince 7 movedOn) ∧
    s.Drops 7 (.acquire 9) ∧
    Along (fun s e => s.registers 7 e = false) (s.next (.acquire 9)).2 (.read :: movedOn) ∧
    ∀ o ∈ ((s.next (.acquire 9)).2.run (.read :: movedOn)).1, o.wake? ≠ some 7 := by
  obtain ⟨-, -, hdropped, hsettled⟩ := woken_for_changes .standard waiting 7
  have hread : (((fresh .standard).after waiting).next .read).1.read? = some (.updated 7) := by
    decide +kernel
  have hholds : (((fresh .standard).after waiting).next .read).2.device.Holds 7 := by
    decide +kernel
  have hes : Along (Settled 7) (((fresh .standard).after waiting).next .read).2 movedOn := by
    simp only [Along, Settled, movedOn]
    decide +kernel
  have hchanged : (((((fresh .standard).after waiting).next .read).2.after movedOn).next
      .read).1.read? = some (.updated 5) := by decide +kernel
  have hdrops : ((fresh .standard).after waiting).Drops 7 (.acquire 9) := .inl (by decide)
  have hsilent : Along (fun s e => s.registers 7 e = false)
      (((fresh .standard).after waiting).next (.acquire 9)).2 (.read :: movedOn) := by
    simp only [Along, movedOn]
    decide +kernel
  exact ⟨hread, hholds, hes, hchanged, hsettled 7 movedOn 5 hread hholds hes hchanged (by decide),
    hdrops, hsilent, (hdropped _ _ hdrops hsilent).1⟩

end Session
end VirtualPad
