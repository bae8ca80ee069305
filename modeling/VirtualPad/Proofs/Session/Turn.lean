import VirtualPad.Proofs.Device.Coherent
import VirtualPad.Proofs.Device.Publish
import VirtualPad.Proofs.Device.Tuned
import VirtualPad.Proofs.Device.Turn

/-!
# Between turns of a binding

An event that begins or ends a binding takes back what is published. All other events leave that to
the reads, and the sample to the states that renew it.
-/
namespace VirtualPad

namespace Device

inductive Call (d : Device) : Device → Prop
  | nothing : Call d d
  | pin : Call d d.pin.2
  | acquire (h : Handle) : Call d (d.acquire h).2
  | unacquire : Call d d.unacquire
  | calibrate (index : Nat) (change : Calibration → Except DeviceError Calibration) :
      Call d (d.calibrate index change).2

structure SameTraffic (d d' : Device) : Prop where
  sample : d'.sample = d.sample
  published : d'.published = d.published
  sequence : d'.sequence = d.sequence

variable {d d' : Device}

theorem SameTraffic.refl (d : Device) : d.SameTraffic d := ⟨rfl, rfl, rfl⟩

theorem Coherent.pin_cases (h : d.Coherent) :
    (∃ record?, d.pin.2 = { d with record? }) ∨
    (d.layout? = none ∧
      ∃ record? m, d.pin.2 = { d with record?, layout? := some (.ofMapper m) }) := by
  obtain hc | ⟨c, hc⟩ := Option.eq_none_or_eq_some d.controller?
  · rw [pin_unbound hc]
    exact .inl ⟨_, rfl⟩
  · by_cases hp : d.pinned? = some c.mapper
    · rw [pin_again hc hp]
      exact .inl ⟨_, rfl⟩
    · -- A layout that is handed out for the first time finds nothing published.
      have hl := h.layout_none_of_ne hc hp
      rw [pin_first hc hp, ← (h.zero_of_unpinned hl).1]
      exact .inr ⟨hl, _, _, rfl⟩

theorem Call.sameTraffic (hd : d.Coherent) (h : d.Call d') : d.SameTraffic d' := by
  cases h with
  | nothing => exact .refl d
  | pin =>
    rcases hd.pin_cases with ⟨record?, hr⟩ | ⟨-, record?, m, hr⟩ <;> rw [hr] <;>
      exact ⟨rfl, rfl, rfl⟩
  | acquire h =>
    simp only [Device.acquire]
    split_ifs <;> exact ⟨rfl, rfl, rfl⟩
  | unacquire => exact ⟨rfl, rfl, rfl⟩
  | calibrate index change =>
    rcases calibrate_cases d index change with ⟨e, hr⟩ | ⟨l, c, k, k', -, -, -, -, hr⟩ <;> rw [hr]
    · exact .refl d
    · exact ⟨rfl, rfl, rfl⟩

theorem pinned_of_layout_eq {m : Mapper} (hl : d'.layout? = d.layout?)
    (hp : d.pinned? = some m) : d'.pinned? = some m := by
  rw [pinned?, hl]
  exact hp

theorem Call.pinned (hd : d.Coherent) (h : d.Call d') {m : Mapper} (hp : d.pinned? = some m) :
    d'.pinned? = some m := by
  cases h with
  | nothing => exact hp
  | pin =>
    rcases hd.pin_cases with ⟨record?, hr⟩ | ⟨hl, -⟩
    · rw [hr]
      exact hp
    · simp [pinned?, hl] at hp
  | acquire h => exact pinned_of_layout_eq (layout_acquire d h) hp
  | unacquire => exact hp
  | calibrate index change =>
    rcases calibrate_cases d index change with ⟨e, hr⟩ | ⟨l, c, k, k', hl, -, -, -, hr⟩ <;> rw [hr]
    · exact hp
    · simpa only [pinned?, hl, Option.map_some] using hp

theorem published_pin_of_zero (h : d.published = .zero) : d.pin.2.published = .zero := by
  simp only [pin]
  split
  · exact h
  · split_ifs
    · exact h
    · rfl

theorem published_receive_of_zero (h : d.published = .zero) (bytes : List UInt8) :
    (d.receive bytes).device.published = .zero := by
  rcases d.published_receive bytes with hp | hp
  · exact hp.trans h
  · exact hp

theorem RenewedOn.bound {bytes : List UInt8} (h : d.RenewedOn bytes) : d.isBound = true := by
  obtain ⟨-, -, c, s, hc, -, -⟩ := h
  simp [isBound, hc]

theorem RenewedOn.not_turnsOn {bytes : List UInt8} (h : d.RenewedOn bytes) :
    d.turnsOn bytes = false := by
  obtain ⟨datagram, hb, c, s, hc, rfl, -⟩ := h
  simp [turnsOn, hb, turnsAt, hc]

def turnsIn (d : Device) : List (List UInt8) → Bool
  | [] => false
  | bytes :: rest =>
    let bytes := bytes.take Datagram.controlSize
    !d.isBound && (d.turnsOn bytes || turnsIn (d.receive bytes).device rest)

end Device

namespace Session

theorem hearOffers_frame (s : Session) (offers : List (List UInt8)) :
    ∃ controller? sample published,
      (s.hearOffers offers).device = { s.device with controller?, sample, published } := by
  induction offers generalizing s with
  | nil => exact ⟨_, _, _, rfl⟩
  | cons bytes rest ih =>
    simp only [hearOffers]
    split_ifs with hb
    · exact ⟨_, _, _, rfl⟩
    · obtain ⟨c?, sample, published, hr⟩ := s.device.receive_frame (bytes.take Datagram.controlSize)
      obtain ⟨c?', sample', published', hd⟩ :=
        ih (s.accept (s.device.receive (bytes.take Datagram.controlSize)))
      rw [device_accept, hr] at hd
      exact ⟨c?', sample', published', hd⟩

theorem published_hearOffers_of_zero {s : Session} (h : s.device.published = .zero)
    (offers : List (List UInt8)) : (s.hearOffers offers).device.published = .zero := by
  induction offers generalizing s with
  | nil => exact h
  | cons bytes rest ih =>
    simp only [hearOffers]
    split_ifs with hb
    · exact h
    · apply ih
      rw [device_accept]
      exact Device.published_receive_of_zero h _

theorem hearOffers_cases (s : Session) (offers : List (List UInt8)) :
    (s.device.turnsIn offers = true ∧ (s.hearOffers offers).device.published = .zero) ∨
    (s.device.turnsIn offers = false ∧ (s.hearOffers offers).device = s.device) := by
  induction offers generalizing s with
  | nil => exact .inr ⟨rfl, rfl⟩
  | cons bytes rest ih =>
    cases hb : s.device.isBound with
    | true => exact .inr ⟨by simp [Device.turnsIn, hb], by simp [hearOffers, hb]⟩
    | false =>
      simp only [hearOffers, Device.turnsIn, hb, Bool.not_false, Bool.true_and, Bool.false_eq_true,
        if_false]
      rcases s.device.receive_cases (bytes.take Datagram.controlSize) with
        ⟨ht, ⟨c?, hd⟩, -⟩ | ⟨-, hr, -, -⟩ | ⟨ht, -, hd, -⟩
      · refine .inl ⟨by rw [ht, Bool.true_or], published_hearOffers_of_zero ?_ rest⟩
        rw [device_accept, hd]
        rfl
      · cases hb.symm.trans hr.bound
      · have hrest := ih (s.accept (s.device.receive (bytes.take Datagram.controlSize)))
        rw [device_accept, hd] at hrest
        rwa [ht, Bool.false_or, hd]

/-! ## Events -/

def Event.bytes? : Event → Option (List UInt8)
  | .dispatch bytes => some bytes
  | .receive bytes size => some (bytes.take size)
  | _ => none

def turns (s : Session) : Event → Bool
  | .dispatch bytes => s.device.turnsOn bytes
  | .receive bytes size => s.device.turnsOn (bytes.take size)
  | .fail => true
  | .enumerate offers =>
    !s.device.acquired && (s.listening || !s.network.portTaken) &&
      s.device.turnsIn (s.network.through offers)
  | .release => true
  | _ => false

def Renews (s : Session) (e : Event) : Prop :=
  ∃ bytes, e.bytes? = some bytes ∧ s.device.RenewedOn bytes

inductive Role (s : Session) : Event → Prop
  | hears {e : Event} (bytes : List UInt8) (h : e.bytes? = some bytes) : Role s e
  | fails : Role s .fail
  | reads : Role s .read
  | releases : Role s .release
  | enumerates (offers : List (List UInt8)) : Role s (.enumerate offers)
  | calls {e : Event} (hb : e.bytes? = none) (ht : s.turns e = false)
      (h : s.device.Call (s.next e).2.device) : Role s e

theorem role (s : Session) (e : Event) : s.Role e := by
  cases e with
  | dispatch bytes => exact .hears _ rfl
  | receive bytes size => exact .hears _ rfl
  | fail => exact .fails
  | read => exact .reads
  | release => exact .releases
  | enumerate offers => exact .enumerates offers
  | pin => exact .calls rfl rfl .pin
  | acquire h => exact .calls rfl rfl (.acquire h)
  | unacquire => exact .calls rfl rfl .unacquire
  | setDeadzone index points =>
    exact .calls rfl rfl (.calibrate index fun c => .ok (c.setDeadzone points))
  | setSaturation index points => exact .calls rfl rfl (.calibrate index _)
  | takePermit h => exact .calls rfl rfl .nothing

theorem next_of_bytes (s : Session) {e : Event} {bytes : List UInt8}
    (h : e.bytes? = some bytes) :
    (s.next e).1 = .ofWake (s.device.receive bytes).wake? ∧
      (s.next e).2.device = (s.device.receive bytes).device ∧
      s.turns e = s.device.turnsOn bytes := by
  cases e with
  | dispatch => cases h; exact ⟨rfl, device_dispatch _ _, rfl⟩
  | receive => cases h; exact ⟨rfl, device_dispatch _ _, rfl⟩
  | _ => cases h

theorem enumerate_cases (s : Session) (offers : List (List UInt8)) :
    (s.enumerate offers).2 = s ∧ s.turns (.enumerate offers) = false ∨
    s.device.acquired = false ∧
      (s.enumerate offers).2 =
        ({ s with listening := true }.hearOffers (s.network.through offers)).pin.2 ∧
      s.turns (.enumerate offers) = s.device.turnsIn (s.network.through offers) := by
  simp only [enumerate, turns]
  cases s.device.acquired <;> cases s.listening <;> cases s.network.portTaken <;> simp

theorem next_read_cases (s : Session) :
    ((∀ k, (s.next .read).1.read? ≠ some (.updated k)) ∧ (s.next .read).1.events = [] ∧
      (s.next .read).1.wake? = none ∧ (s.next .read).2 = s) ∨
    ∃ l, s.device.layout? = some l ∧
      let new := Snapshot.ofSample l s.device.sample
      let events := Device.changes s.device.published new (s.device.sequence + 1) l.controls
      (s.next .read).1.read? = some (.updated events.length) ∧
      (s.next .read).1.events = events ∧
      (s.next .read).1.wake? = (if events = [] then none else s.device.wake?) ∧
      (s.next .read).2.device =
        { s.device with
          published := new
          sequence := if events = [] then s.device.sequence else s.device.sequence + 1 } := by
  rcases Device.read_cases s.device ([] : List (Control × Int32)) ([] : List ChangeEvent) with
    ⟨ho, hr⟩ | ⟨c, l, -, -, hl, hr⟩
  · left
    simp only [next, read, Outcome.ofRead]
    generalize s.device.read ([] : List (Control × Int32)) ([] : List ChangeEvent) = r at ho hr ⊢
    rw [hr]
    refine ⟨?_, rfl, rfl, rfl⟩
    rcases ho with ho | ho <;> simp [ho]
  · right
    refine ⟨l, hl, ?_⟩
    simp only [next, read, Outcome.ofRead, device_deposit, withDevice, hr, Device.readLayout,
      Device.publish_lists, List.length_eq_zero_iff, and_self]

variable {s : Session} {e : Event}

theorem published_next_read {k : Nat} (h : (s.next .read).1.read? = some (.updated k)) :
    ∃ l, s.device.layout? = some l ∧ (s.next .read).2.device.layout? = some l ∧
      (s.next .read).2.device.sample = s.device.sample ∧
      (s.next .read).2.device.published = .ofSample l s.device.sample := by
  rcases s.next_read_cases with ⟨hn, -⟩ | ⟨l, hl, -, -, -, hs⟩
  · exact absurd h (hn k)
  · rw [hs]
    exact ⟨l, hl, hl, rfl, rfl⟩

theorem events_next_of_ne_read (s : Session) (he : e ≠ .read) : (s.next e).1.events = [] := by
  cases e with
  | read => exact absurd rfl he
  | _ => rfl

theorem enumerate_pins (hd : s.device.Coherent) (offers : List (List UInt8)) :
    (s.enumerate offers).2.device = s.device ∨
    ∃ d : Device, d.Coherent ∧ d.layout? = s.device.layout? ∧ d.sequence = s.device.sequence ∧
      d.Call (s.enumerate offers).2.device := by
  rcases s.enumerate_cases offers with ⟨hr, -⟩ | ⟨-, hr, -⟩ <;> rw [hr]
  · exact .inl rfl
  · have hsteps := hearOffers_steps { s with listening := true } (s.network.through offers)
    obtain ⟨c?, sample, published, hf⟩ :=
      hearOffers_frame { s with listening := true } (s.network.through offers)
    refine .inr ⟨_, Device.keep_of_steps .step hsteps hd, ?_, ?_, .pin⟩ <;> rw [hf]

theorem published_of_turns (h : s.turns e = true) :
    (s.next e).2.device.published = .zero := by
  cases s.role e with
  | hears bytes hb =>
    obtain ⟨-, hd, ht⟩ := s.next_of_bytes hb
    rw [h] at ht
    rw [hd]
    rcases s.device.receive_cases bytes with ⟨-, ⟨c?, hr⟩, -⟩ | ⟨hn, -⟩ | ⟨hn, -⟩
    · rw [hr]
      rfl
    · cases ht.trans hn
    · cases ht.trans hn
  | fails => rfl
  | reads => cases h
  | releases => rfl
  | enumerates offers =>
    simp only [next]
    rcases s.enumerate_cases offers with ⟨-, hn⟩ | ⟨-, hr, ht⟩
    · cases h.symm.trans hn
    · rw [hr]
      apply Device.published_pin_of_zero
      rcases hearOffers_cases { s with listening := true } (s.network.through offers) with
        ⟨-, hp⟩ | ⟨hn, -⟩
      · exact hp
      · cases (h.symm.trans ht).trans hn
  | calls _ hn => cases h.symm.trans hn

theorem next_of_renews (h : s.Renews e) :
    (∃ sample, (s.next e).2.device = { s.device with sample }) ∧
      (s.next e).1.wake? = s.device.wake? := by
  obtain ⟨bytes, hb, hr⟩ := h
  obtain ⟨ho, hd, -⟩ := s.next_of_bytes hb
  rw [ho, hd]
  rcases s.device.receive_cases bytes with ⟨ht, -⟩ | ⟨-, -, hsample, hwake⟩ | ⟨-, hn, -⟩
  · cases hr.not_turnsOn.symm.trans ht
  · exact ⟨hsample, hwake⟩
  · exact absurd hr hn

theorem sameTraffic_next (hd : s.device.Coherent) (he : e ≠ .read) (ht : s.turns e = false)
    (hr : ¬ s.Renews e) : s.device.SameTraffic (s.next e).2.device := by
  cases s.role e with
  | hears bytes hb =>
    obtain ⟨-, hdevice, htb⟩ := s.next_of_bytes hb
    rw [hdevice]
    rcases s.device.receive_cases bytes with ⟨hy, -⟩ | ⟨-, hy, -⟩ | ⟨-, -, hsame, -⟩
    · cases (ht.symm.trans htb).trans hy
    · exact absurd ⟨bytes, hb, hy⟩ hr
    · rw [hsame]
      exact .refl _
  | fails => cases ht
  | reads => exact absurd rfl he
  | releases => cases ht
  | enumerates offers =>
    simp only [next]
    rcases s.enumerate_cases offers with ⟨hsame, -⟩ | ⟨-, hpin, htb⟩
    · rw [hsame]
      exact .refl _
    · rw [hpin]
      rcases hearOffers_cases { s with listening := true } (s.network.through offers) with
        ⟨hy, -⟩ | ⟨-, hsame⟩
      · cases (ht.symm.trans htb).trans hy
      · have hp := Device.Call.pin.sameTraffic hd
        simp only [pin, withDevice, hsame]
        exact hp
  | calls _ _ hcall => exact hcall.sameTraffic hd

theorem published_next (hd : s.device.Coherent) (he : e ≠ .read) (ht : s.turns e = false) :
    (s.next e).2.device.published = s.device.published := by
  by_cases hr : s.Renews e
  · obtain ⟨⟨sample, hsample⟩, -⟩ := next_of_renews hr
    rw [hsample]
  · exact (sameTraffic_next hd he ht hr).published

theorem pinned_next (hd : s.device.Coherent) (he : e ≠ .release) {m : Mapper}
    (hp : s.device.pinned? = some m) : (s.next e).2.device.pinned? = some m := by
  cases s.role e with
  | hears bytes hb =>
    rw [(s.next_of_bytes hb).2.1]
    exact Device.pinned_of_layout_eq (Device.layout_receive _ _) hp
  | fails => exact hp
  | reads =>
    rcases s.next_read_cases with ⟨-, -, -, hs⟩ | ⟨l, -, -, -, -, hs⟩ <;> rw [hs]
    · exact hp
    · exact hp
  | releases => exact absurd rfl he
  | enumerates offers =>
    simp only [next]
    rcases enumerate_pins hd offers with hr | ⟨d, hc, hl, -, hcall⟩
    · rw [hr]
      exact hp
    · exact hcall.pinned hc (Device.pinned_of_layout_eq hl hp)
  | calls _ _ hcall => exact hcall.pinned hd hp

theorem sequence_next (hd : s.device.Coherent) (he : e ≠ .release) :
    (s.next e).2.device.sequence =
      if (s.next e).1.events = [] then s.device.sequence else s.device.sequence + 1 := by
  by_cases hread : e = .read
  · subst hread
    rcases s.next_read_cases with ⟨-, hn, -, hs⟩ | ⟨l, -, -, hr, -, hs⟩
    · rw [hn, hs]
      rfl
    · rw [hr, hs]
  · rw [if_pos (events_next_of_ne_read s hread)]
    cases s.role e with
    | hears bytes hb =>
      obtain ⟨c?, sample, published, hf⟩ := s.device.receive_frame bytes
      rw [(s.next_of_bytes hb).2.1, hf]
    | fails => rfl
    | reads => exact absurd rfl hread
    | releases => exact absurd rfl he
    | enumerates offers =>
      simp only [next]
      rcases enumerate_pins hd offers with hr | ⟨d, hc, -, hs, hcall⟩
      · rw [hr]
      · exact (hcall.sameTraffic hc).sequence.trans hs
    | calls _ _ hcall => exact (hcall.sameTraffic hd).sequence

/-! ## Runs -/

theorem coherent_run (hd : s.device.Coherent) (es : List Event) :
    (s.after es).device.Coherent :=
  Device.keep_of_steps .step (after_steps s es) hd

theorem tuned_run (ht : s.device.Tuned) (es : List Event) : (s.after es).device.Tuned :=
  Device.keep_of_steps .step (after_steps s es) ht

theorem after_concat (s : Session) (es : List Event) (e : Event) :
    s.after (es ++ [e]) = ((s.after es).next e).2 :=
  after_append s es [e]

theorem run_concat (s : Session) (es : List Event) (e : Event) :
    (s.run (es ++ [e])).1 = (s.run es).1 ++ [((s.after es).next e).1] := by
  induction es generalizing s with
  | nil => rfl
  | cons e' es ih => exact congrArg _ (ih (s.next e').2)

def Along (P : Session → Event → Prop) : Session → List Event → Prop
  | _, [] => True
  | s, e :: es => P s e ∧ Along P (s.next e).2 es

theorem along_concat {P : Session → Event → Prop} {s : Session} {es : List Event} {e : Event} :
    Along P s (es ++ [e]) ↔ Along P s es ∧ P (s.after es) e := by
  induction es generalizing s with
  | nil => simp [Along, after_nil]
  | cons e' es ih => simp only [List.cons_append, Along, ih, after_cons, and_assoc]

abbrev Unturned : Session → List Event → Prop := Along fun s e => s.turns e = false

/-- A run that is empty, or whose last step is such. -/
def Opens (P : Session → Event → Prop) (s : Session) (es : List Event) : Prop :=
  es = [] ∨ ∃ init e, es = init ++ [e] ∧ P (s.after init) e

theorem device_of_opens {n : Network} {es : List Event}
    (h : Opens (fun _ e => e = .release) (fresh n) es) : ((fresh n).after es).device = .fresh := by
  rcases h with rfl | ⟨init, e, rfl, rfl⟩
  · rfl
  · rw [after_concat]
    rfl

end Session
end VirtualPad
