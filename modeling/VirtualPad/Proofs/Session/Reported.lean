import VirtualPad.Proofs.Session.Replay

/-!
# Reports against writes

A read writes the values of all controls and reports those that are new against what is published. Where
a binding begins or ends, what is published is taken back and nobody is told: the reports start again
from rest, whatever was reported before.
-/
namespace VirtualPad

/-- The value that an index was given last. One that was given none is at rest. -/
def latest (updates : List (Nat × Int32)) (index : Nat) : Int32 :=
  ((updates.reverse.find? (·.1 = index)).map (·.2)).getD 0

theorem latest_append_of_forall_ne {updates : List (Nat × Int32)} {index : Nat}
    (h : ∀ u ∈ updates, u.1 ≠ index) (before : List (Nat × Int32)) :
    latest (before ++ updates) index = latest before index := by
  have hnone : updates.reverse.find? (·.1 = index) = none :=
    find?_reverse_eq_none fun u hu => by simpa using h u hu
  rw [latest, List.reverse_append, List.find?_append, hnone, Option.none_or, latest]

theorem latest_append_of_exists {updates : List (Nat × Int32)} {index : Nat}
    (h : ∃ u ∈ updates, u.1 = index) (before : List (Nat × Int32)) :
    latest (before ++ updates) index = latest updates index := by
  obtain ⟨u, hu, hindex⟩ := h
  cases hfind : updates.reverse.find? (·.1 = index) with
  | none =>
    have hn := List.find?_eq_none.1 hfind u (List.mem_reverse.2 hu)
    exact absurd (decide_eq_true hindex) hn
  | some v => rw [latest, List.reverse_append, List.find?_append, hfind, latest, hfind, Option.some_or]

theorem latest_of_forall {updates : List (Nat × Int32)} {index : Nat} {value : Int32}
    (h : ∃ u ∈ updates, u.1 = index) (hvalue : ∀ u ∈ updates, u.1 = index → u.2 = value) :
    latest updates index = value := by
  obtain ⟨u, hu, hindex⟩ := h
  cases hfind : updates.reverse.find? (·.1 = index) with
  | none =>
    have hn := List.find?_eq_none.1 hfind u (List.mem_reverse.2 hu)
    exact absurd (decide_eq_true hindex) hn
  | some v =>
    have hv := List.mem_reverse.1 (List.mem_of_find?_eq_some hfind)
    have hvindex : v.1 = index := by simpa using List.find?_some hfind
    rw [latest, hfind]
    exact hvalue v hv hvindex

namespace Session
open Device (valuesOf changes)
open Layout (ofMapper)

def Outcome.written (o : Outcome) : List (Nat × Int32) := o.writes.map fun w => (w.1.index, w.2)

def Outcome.reported (o : Outcome) : List (Nat × Int32) := o.events.map fun e => (e.index, e.value)

def Outcome.Updates (o : Outcome) : Prop := ∃ changed, o.read? = some (.updated changed)

def writtenIn (outcomes : List Outcome) : List (Nat × Int32) := outcomes.flatMap (·.written)

def reportedIn (outcomes : List Outcome) : List (Nat × Int32) := outcomes.flatMap (·.reported)

theorem Outcome.exists_event_iff (o : Outcome) (index : Nat) :
    (∃ event ∈ o.events, event.index = index) ↔ ∃ u ∈ o.reported, u.1 = index := by
  simp [Outcome.reported]

/-! ## One read -/

section
variable {m : Mapper} {l : Layout} {index : Nat} {kind : Control.Kind}

theorem exists_control (hl : (ofMapper m).TunedFrom l) (hk : (ofMapper m).kindAt index = some kind) :
    ∃ c ∈ l.controls, c.index = index ∧ c.kind = kind := by
  obtain ⟨b, hb, rfl⟩ := Option.map_eq_some_iff.1 hk
  rw [Layout.control?] at hb
  obtain ⟨c, hc, hbc⟩ := exists_of_rel_some (hb ▸ hl.controls index)
  have hindex : ((ofMapper m).controls.map (·.index))[index]? = some b.index :=
    (List.getElem?_map ..).trans (congrArg (Option.map (·.index)) hb)
  rw [Layout.indices_ofMapper] at hindex
  obtain ⟨_, hindex⟩ := List.getElem?_eq_some_iff.1 hindex
  rw [List.getElem_range] at hindex
  refine ⟨c, List.mem_of_getElem? hc, ?_, hbc.kind_eq⟩
  rw [hbc.eq_base, hindex]

theorem kind_eq_of_index (hl : (ofMapper m).TunedFrom l)
    (hk : (ofMapper m).kindAt index = some kind) {c : Control} (hc : c ∈ l.controls)
    (hindex : c.index = index) : c.kind = kind := by
  have hat := hl.kindAt_index hc
  rw [hl.kindAt_eq, hindex] at hat
  exact Option.some.inj (hat.symm.trans hk)

theorem written_at (hl : (ofMapper m).TunedFrom l) (hk : (ofMapper m).kindAt index = some kind)
    {o : Outcome} {new : Snapshot} (hw : o.writes = valuesOf new l.controls) :
    (∃ u ∈ o.written, u.1 = index) ∧ ∀ u ∈ o.written, u.1 = index → u.2 = new.value kind := by
  simp only [Outcome.written, hw, valuesOf, List.map_map, List.mem_map, Function.comp_apply]
  constructor
  · obtain ⟨c, hc, hindex, -⟩ := exists_control hl hk
    exact ⟨_, ⟨c, hc, rfl⟩, hindex⟩
  · rintro u ⟨c, hc, rfl⟩ hindex
    rw [kind_eq_of_index hl hk hc hindex]

theorem reported_at (hl : (ofMapper m).TunedFrom l) (hk : (ofMapper m).kindAt index = some kind)
    {o : Outcome} {old new : Snapshot} {sequence : UInt32}
    (he : o.events = changes old new sequence l.controls) :
    ((∃ u ∈ o.reported, u.1 = index) ↔ new.value kind ≠ old.value kind) ∧
      ∀ u ∈ o.reported, u.1 = index → u.2 = new.value kind := by
  simp only [Outcome.reported, he, changes, List.map_map, List.mem_map, List.mem_filter,
    Function.comp_apply, decide_eq_true_eq]
  refine ⟨⟨?_, ?_⟩, ?_⟩
  · rintro ⟨u, ⟨c, ⟨hc, hne⟩, rfl⟩, hindex⟩
    rwa [kind_eq_of_index hl hk hc hindex] at hne
  · intro hne
    obtain ⟨c, hc, hindex, rfl⟩ := exists_control hl hk
    exact ⟨_, ⟨c, ⟨hc, hne⟩, rfl⟩, hindex⟩
  · rintro u ⟨c, ⟨hc, -⟩, rfl⟩ hindex
    rw [kind_eq_of_index hl hk hc hindex]

end

variable {s : Session} {e : Event} {m : Mapper}

inductive Effect (s : Session) : Event → Prop
  | blank {e : Event} (hupdates : ¬ (s.next e).1.Updates) (hw : (s.next e).1.writes = [])
      (he : (s.next e).1.events = [])
      (hread : e = .read → (s.next e).2.device.published = s.device.published) : Effect s e
  | refresh (l : Layout) (hl : s.device.layout? = some l) (hupdates : (s.next .read).1.Updates)
      (hw : (s.next .read).1.writes = valuesOf (.ofSample l s.device.sample) l.controls)
      (he : (s.next .read).1.events =
        changes s.device.published (.ofSample l s.device.sample) (s.device.sequence + 1) l.controls)
      (hp : (s.next .read).2.device.published = .ofSample l s.device.sample) : Effect s .read

theorem effect (s : Session) (e : Event) : s.Effect e := by
  cases e with
  | read =>
    rcases Device.read_cases s.device ([] : List (Control × Int32)) ([] : List ChangeEvent) with
      ⟨ho, hr⟩ | ⟨c, l, -, -, hl, hr⟩
    · apply Effect.blank <;> simp only [Outcome.Updates, next, read, Outcome.ofRead,
        device_deposit, withDevice] <;>
        generalize s.device.read ([] : List (Control × Int32)) ([] : List ChangeEvent) = r at ho hr ⊢
      · rcases ho with ho | ho <;> simp [ho]
      · rw [hr]
      · rw [hr]
      · rw [hr]
        exact fun _ => rfl
    · apply Effect.refresh l hl <;>
        simp only [Outcome.Updates, next, read, Outcome.ofRead, device_deposit, withDevice, hr,
          Device.readLayout, Device.publish_lists]
      exact ⟨_, rfl⟩
  | _ =>
    refine .blank (by rintro ⟨_, h⟩; cases h) rfl rfl ?_
    intro h
    cases h

/-! ## Since a binding began or ended -/

/-- What the device has published is, at one control, what was written last and what was reported
last. -/
structure Agrees (outcomes : List Outcome) (published : Snapshot) (index : Nat)
    (kind : Control.Kind) : Prop where
  written_eq : latest (writtenIn outcomes) index = published.value kind
  reported_eq : latest (reportedIn outcomes) index = published.value kind
  exists_written : (∃ o ∈ outcomes, o.Updates) → ∃ u ∈ writtenIn outcomes, u.1 = index

theorem writtenIn_append (before since : List Outcome) :
    writtenIn (before ++ since) = writtenIn before ++ writtenIn since := List.flatMap_append

theorem reportedIn_append (before since : List Outcome) :
    reportedIn (before ++ since) = reportedIn before ++ reportedIn since := List.flatMap_append

theorem writtenIn_concat (outcomes : List Outcome) (o : Outcome) :
    writtenIn (outcomes ++ [o]) = writtenIn outcomes ++ o.written :=
  (writtenIn_append outcomes [o]).trans (congrArg _ (List.flatMap_singleton _ _))

theorem reportedIn_concat (outcomes : List Outcome) (o : Outcome) :
    reportedIn (outcomes ++ [o]) = reportedIn outcomes ++ o.reported :=
  (reportedIn_append outcomes [o]).trans (congrArg _ (List.flatMap_singleton _ _))

variable {s : Session} {m : Mapper} {outcomes : List Outcome} {o : Outcome} {old new : Snapshot}
  {index : Nat} {kind : Control.Kind}

theorem agrees_nil (index : Nat) (kind : Control.Kind) : Agrees [] .zero index kind where
  written_eq := (Snapshot.value_zero kind).symm
  reported_eq := (Snapshot.value_zero kind).symm
  exists_written := by simp

theorem Agrees.blank (h : Agrees outcomes old index kind) (hupdates : ¬ o.Updates)
    (hw : o.writes = []) (he : o.events = []) : Agrees (outcomes ++ [o]) old index kind where
  written_eq := by
    rw [writtenIn_concat, Outcome.written, hw, List.map_nil, List.append_nil]
    exact h.written_eq
  reported_eq := by
    rw [reportedIn_concat, Outcome.reported, he, List.map_nil, List.append_nil]
    exact h.reported_eq
  exists_written := by
    rintro ⟨o', ho', hu⟩
    rcases List.mem_append.1 ho' with ho' | ho'
    · obtain ⟨u, hmem, hindex⟩ := h.exists_written ⟨o', ho', hu⟩
      exact ⟨u, by simp [writtenIn_concat, hmem], hindex⟩
    · rw [List.mem_singleton.1 ho'] at hu
      exact absurd hu hupdates

theorem Agrees.refresh (h : Agrees outcomes old index kind) {l : Layout}
    (hl : (ofMapper m).TunedFrom l) (hk : (ofMapper m).kindAt index = some kind)
    {sequence : UInt32} (hw : o.writes = valuesOf new l.controls)
    (he : o.events = changes old new sequence l.controls) :
    Agrees (outcomes ++ [o]) new index kind := by
  obtain ⟨hwritten, hvalues⟩ := written_at hl hk hw
  obtain ⟨hreported, hnew⟩ := reported_at hl hk he
  refine ⟨?_, ?_, ?_⟩
  · rw [writtenIn_concat, latest_append_of_exists hwritten]
    exact latest_of_forall hwritten hvalues
  · rw [reportedIn_concat]
    by_cases hne : new.value kind = old.value kind
    · have hnone : ∀ u ∈ o.reported, u.1 ≠ index :=
        fun u hu hindex => hreported.1 ⟨u, hu, hindex⟩ hne
      rw [latest_append_of_forall_ne hnone, h.reported_eq, hne]
    · rw [latest_append_of_exists (hreported.2 hne)]
      exact latest_of_forall (hreported.2 hne) hnew
  · obtain ⟨u, hu, hindex⟩ := hwritten
    exact fun _ => ⟨u, by simp [writtenIn_concat, hu], hindex⟩

theorem Agrees.event_iff (h : Agrees outcomes old index kind) {l : Layout}
    (hl : (ofMapper m).TunedFrom l) (hk : (ofMapper m).kindAt index = some kind)
    {sequence : UInt32} (he : o.events = changes old new sequence l.controls) :
    (∃ event ∈ o.events, event.index = index) ↔
      new.value kind ≠ latest (writtenIn outcomes) index := by
  rw [o.exists_event_iff, (reported_at hl hk he).1, h.written_eq]

theorem Agrees.next {e : Event} (hd : s.device.Coherent) (ht : s.device.Tuned)
    (hturn : s.turns e = false) (hm : ∀ m', s.device.pinned? = some m' → m' = m)
    (hk : (ofMapper m).kindAt index = some kind)
    (h : Agrees outcomes s.device.published index kind) :
    Agrees (outcomes ++ [(s.next e).1]) (s.next e).2.device.published index kind := by
  cases s.effect e with
  | blank hupdates hw he hread =>
    have hp : (s.next e).2.device.published = s.device.published := by
      by_cases h : e = .read
      · exact hread h
      · exact published_next hd h hturn
    rw [hp]
    exact h.blank hupdates hw he
  | refresh l hl _ hw he hp =>
    have hbase := ht l hl
    rw [hm l.mapper (by rw [Device.pinned?, hl, Option.map_some])] at hbase
    rw [hp]
    exact h.refresh hbase hk hw he

theorem agrees_run (hd : s.device.Coherent) (ht : s.device.Tuned)
    (hzero : s.device.published = .zero) {es : List Event} (hes : Unturned s es)
    (hm : ∀ m', (s.after es).device.pinned? = some m' → m' = m)
    (hk : (ofMapper m).kindAt index = some kind) :
    Agrees (s.run es).1 (s.after es).device.published index kind := by
  induction es using List.reverseRecOn with
  | nil =>
    rw [after_nil, hzero]
    exact agrees_nil index kind
  | append_singleton es e ih =>
    obtain ⟨hes, hturn⟩ := along_concat.1 hes
    have hd := coherent_run hd es
    rw [after_concat] at hm ⊢
    have hm' : ∀ m', (s.after es).device.pinned? = some m' → m' = m :=
      fun m' hp => hm m' (pinned_next hd (ne_release_of_not_turns hturn) hp)
    rw [run_concat]
    exact (ih hes hm').next hd (tuned_run ht es) hturn hm' hk

/-! ## Over the whole run -/

theorem run_append (s : Session) (es fs : List Event) :
    (s.run (es ++ fs)).1 = (s.run es).1 ++ ((s.after es).run fs).1 := by
  induction es generalizing s with
  | nil => rfl
  | cons e es ih => exact congrArg _ (ih (s.next e).2)

structure Splits (n : Network) (es pre mid : List Event) : Prop where
  eq_append : es = pre ++ mid
  opens : Opens (fun s e => s.turns e = true) (fresh n) pre
  unturned : Unturned ((fresh n).after pre) mid

theorem exists_splits (n : Network) (es : List Event) : ∃ pre mid, Splits n es pre mid := by
  induction es using List.reverseRecOn with
  | nil => exact ⟨[], [], rfl, .inl rfl, trivial⟩
  | append_singleton es e ih =>
    obtain ⟨pre, mid, rfl, hpre, hmid⟩ := ih
    cases hturn : ((fresh n).after (pre ++ mid)).turns e with
    | true => exact ⟨pre ++ mid ++ [e], [], by simp, .inr ⟨_, e, rfl, hturn⟩, trivial⟩
    | false =>
      rw [after_append] at hturn
      exact ⟨pre, mid ++ [e], by simp, hpre, along_concat.2 ⟨hmid, hturn⟩⟩

theorem writtenIn_of_not_updates {es : List Event} (h : ∀ o ∈ (s.run es).1, ¬ o.Updates) :
    writtenIn (s.run es).1 = [] := by
  rw [writtenIn, List.flatMap_eq_nil_iff]
  intro o ho
  obtain ⟨pre, e, post, -, rfl⟩ := mem_run ho
  cases (s.after pre).effect e with
  | blank _ hw => rw [Outcome.written, hw, List.map_nil]
  | refresh l _ hupdates => exact absurd hupdates (h _ ho)

theorem Splits.agrees {n : Network} {es pre mid : List Event} (h : Splits n es pre mid) {l : Layout}
    (hl : ((fresh n).after es).device.layout? = some l)
    (hk : (ofMapper l.mapper).kindAt index = some kind) :
    Agrees (((fresh n).after pre).run mid).1 ((fresh n).after es).device.published index kind := by
  obtain ⟨rfl, hpre, hmid⟩ := h
  rw [after_append] at hl ⊢
  apply agrees_run (coherent_run (s := fresh n) .fresh pre) (tuned_after n pre)
    (published_of_opens hpre) hmid _ hk
  intro m hm
  rw [Device.pinned?, hl, Option.map_some, Option.some.injEq] at hm
  exact hm.symm

/-- The read before is looked at alone, unless it came before the binding began or ended. -/
theorem Agrees.written_append {before since : List Outcome} (h : Agrees since old index kind)
    (hearlier : (∃ o ∈ since, o.Updates) ∨ writtenIn before = []) :
    latest (writtenIn (before ++ since)) index = latest (writtenIn since) index := by
  rw [writtenIn_append]
  rcases hearlier with hearlier | hearlier
  · exact latest_append_of_exists (h.exists_written hearlier) _
  · rw [hearlier, List.nil_append]

theorem latest_append_eq_iff {before since : List (Nat × Int32)} {value : Int32}
    (h : latest since index = value) :
    latest (before ++ since) index = value ↔
      (∃ u ∈ since, u.1 = index) ∨ latest before index = 0 := by
  by_cases hexists : ∃ u ∈ since, u.1 = index
  · simp [latest_append_of_exists hexists, h, hexists]
  · have hne : ∀ u ∈ since, u.1 ≠ index := fun u hu hindex => hexists ⟨u, hu, hindex⟩
    have hzero : latest since index = 0 := latest_append_of_forall_ne hne []
    rw [latest_append_of_forall_ne hne, ← h, hzero, or_iff_right hexists]

/-- After any run, and for each control that a read writes. The read reports it exactly when its value is
not the one written last since a binding began or ended, where what was not written is at rest, and the
reports since then give its value. Over the whole run the first holds where the read before came since
then too, or there was none; the second holds exactly when a report came since then, or those from
before leave the control at rest. -/
theorem reports_since_turn (n : Network) (es : List Event) :
    (∃ pre mid, Splits n es pre mid) ∧
    ∀ pre mid, Splits n es pre mid →
      let before := ((fresh n).run pre).1
      let since := (((fresh n).after pre).run mid).1
      let r := (((fresh n).after es).next .read).1
      ((fresh n).run es).1 = before ++ since ∧
      (r.Updates → ∀ w ∈ r.writes,
        ((∃ event ∈ r.events, event.index = w.1.index) ↔
          w.2 ≠ latest (writtenIn since) w.1.index) ∧
        latest (reportedIn (since ++ [r])) w.1.index = w.2 ∧
        ((∃ o ∈ since, o.Updates) ∨ (∀ o ∈ before, ¬ o.Updates) →
          ((∃ event ∈ r.events, event.index = w.1.index) ↔
            w.2 ≠ latest (writtenIn (before ++ since)) w.1.index)) ∧
        (latest (reportedIn (before ++ since ++ [r])) w.1.index = w.2 ↔
          (∃ u ∈ reportedIn (since ++ [r]), u.1 = w.1.index) ∨
            latest (reportedIn before) w.1.index = 0)) := by
  refine ⟨exists_splits n es, ?_⟩
  intro pre mid hsplits before since r
  refine ⟨hsplits.eq_append ▸ run_append (fresh n) pre mid, ?_⟩
  intro hupdates w hw
  cases ((fresh n).after es).effect .read with
  | blank hn => exact absurd hupdates hn
  | refresh l hl _ hwrites hevents hp =>
    have hbase := tuned_after n es l hl
    have hw' : w ∈ valuesOf (.ofSample l ((fresh n).after es).device.sample) l.controls :=
      hwrites ▸ hw
    obtain ⟨c, hc, rfl⟩ := List.mem_map.1 hw'
    have hk : (ofMapper l.mapper).kindAt c.index = some c.kind := by
      rw [← hbase.kindAt_eq]
      exact hbase.kindAt_index hc
    have hsince : Agrees since _ c.index c.kind := hsplits.agrees hl hk
    have hread := hsince.refresh hbase hk hwrites hevents
    have hreported := hsince.event_iff hbase hk hevents
    refine ⟨hreported, hread.reported_eq, ?_, ?_⟩
    · intro hearlier
      rw [hsince.written_append (hearlier.imp_right writtenIn_of_not_updates)]
      exact hreported
    · rw [List.append_assoc, reportedIn_append]
      exact latest_append_eq_iff hread.reported_eq

theorem reports_since_turn_rebound :
    let es := rebound ++ playedOn
    let since := (((fresh .standard).after rebound).run playedOn).1
    let r := (((fresh .standard).after es).next .read).1
    Splits .standard es rebound playedOn ∧ (∃ o ∈ since, o.Updates) ∧
    r.read? = some (.updated 2) ∧ r.writes.length = 17 ∧
    ∀ w ∈ r.writes,
      ((∃ event ∈ r.events, event.index = w.1.index) ↔
        w.2 ≠ latest (writtenIn ((fresh .standard).run es).1) w.1.index) := by
  intro es since r
  have hsplits : Splits .standard es rebound playedOn := by
    refine ⟨rfl, .inr ⟨rebound.dropLast, _, rfl, ?_⟩, ?_⟩
    · decide +kernel
    · simp only [Unturned, Along, playedOn]
      decide +kernel
  have hread : r.read? = some (.updated 2) := by decide +kernel
  have hearlier : ∃ o ∈ since, o.read? = some (.updated 6) := by decide +kernel
  have hsince : ∃ o ∈ since, o.Updates := hearlier.imp fun _ h => ⟨h.1, 6, h.2⟩
  obtain ⟨-, hlaws⟩ := reports_since_turn .standard es
  obtain ⟨hall, hlaw⟩ := hlaws rebound playedOn hsplits
  refine ⟨hsplits, hsince, hread, by decide +kernel, ?_⟩
  intro w hw
  obtain ⟨-, -, hreported, -⟩ := hlaw ⟨2, hread⟩ w hw
  rw [hall]
  exact hreported (.inl hsince)

def heldOver : List Event :=
  [.dispatch (Datagram.encodeOffer (some ⟨1, .standard, "pad"⟩)), .enumerate [], .acquire 7,
    .dispatch (Datagram.encodeState 1 1 ⟨1, 0, 0, 0, 0, 0⟩), .read,
    .dispatch (Datagram.encodeOffer (some ⟨2, .standard, "other"⟩))]

/-- The next read writes that the button is up and does not report it. It reports the axes, which rest
where they did. -/
theorem held_over_unreported :
    let all := ((fresh .standard).run heldOver).1
    let r := (((fresh .standard).after heldOver).next .read).1
    .release ∉ heldOver ∧ r.Updates ∧
    (r.writes.map fun w => (w.1.index, w.2))[6]? = some (6, 0) ∧
    latest (writtenIn all) 6 = 128 ∧ latest (reportedIn (all ++ [r])) 6 = 128 ∧
    r.reported = [(0, 32768), (1, 32768), (2, 32768), (3, 32768)] ∧
    (∀ u ∈ r.reported, latest (writtenIn all) u.1 = u.2) ∧
    ¬ (∀ w ∈ r.writes, (∃ event ∈ r.events, event.index = w.1.index) ↔
      w.2 ≠ latest (writtenIn all) w.1.index) ∧
    ¬ ∀ w ∈ r.writes, latest (reportedIn (all ++ [r])) w.1.index = w.2 := by
  intro all r
  have hread : r.read? = some (.updated 4) := by decide +kernel
  refine ⟨by simp [heldOver], ⟨4, hread⟩, ?_⟩
  decide +kernel

end Session
end VirtualPad
