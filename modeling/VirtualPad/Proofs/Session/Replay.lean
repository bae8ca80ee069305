import Mathlib.Data.List.Induction
import VirtualPad.Proofs.Layout.Places
import VirtualPad.Proofs.Session.Published
import VirtualPad.Proofs.Session.Turn

/-!
# Replaying events

The events reported since a binding began give the published snapshot back, and the reads that
report anything are numbered one after the other since the last release.
-/
namespace VirtualPad

namespace Snapshot

def apply (kindAt : Nat → Option Control.Kind) (s : Snapshot) (e : ChangeEvent) : Snapshot :=
  match kindAt e.index with
  | some kind => s.setValue kind e.value
  | none => s

def replay (kindAt : Nat → Option Control.Kind) (events : List ChangeEvent) : Snapshot :=
  events.foldl (apply kindAt) zero

variable {kindAt : Nat → Option Control.Kind}

theorem value_apply (s : Snapshot) (e : ChangeEvent) (kind : Control.Kind) :
    (s.apply kindAt e).value kind =
      if decide (kindAt e.index = some kind) then kind.stored e.value else s.value kind := by
  simp only [apply, decide_eq_true_eq]
  cases h : kindAt e.index with
  | none => simp
  | some k =>
    simp only [value_setValue, Option.some.injEq]
    split_ifs with hk
    · rw [hk]
    · rfl

theorem value_foldl_apply (events : List ChangeEvent) (s : Snapshot) (kind : Control.Kind) :
    (events.foldl (apply kindAt) s).value kind =
      ((events.reverse.find? fun e => kindAt e.index = some kind).map fun e =>
        kind.stored e.value).getD (s.value kind) :=
  foldl_view (apply kindAt) (·.value kind) (fun s e => s.value_apply e kind) events s

theorem value_replay_of_ne {kind : Control.Kind} (h : ∀ i, kindAt i ≠ some kind)
    (events : List ChangeEvent) : (replay kindAt events).value kind = 0 := by
  have hnone : events.reverse.find? (fun e => kindAt e.index = some kind) = none := by
    apply find?_reverse_eq_none
    intro e _ he
    exact h e.index (of_decide_eq_true he)
  rw [replay, value_foldl_apply, hnone]
  exact value_zero kind

theorem replay_of_none (events : List ChangeEvent) : replay (fun _ => none) events = zero := by
  apply ext_value
  intro kind
  have hne : ∀ i : Nat, (fun _ => none) i ≠ some kind := by simp
  rw [value_replay_of_ne hne, value_zero]

/-- The changes against an old snapshot turn it into the new one, where the two agree outside the
controls. -/
theorem foldl_apply_changes {old new : Snapshot} {controls : List Control}
    (hat : ∀ c ∈ controls, kindAt c.index = some c.kind)
    (hout : ∀ kind, (∀ c ∈ controls, c.kind ≠ kind) → new.value kind = old.value kind)
    (sequence : UInt32) :
    (Device.changes old new sequence controls).foldl (apply kindAt) old = new := by
  apply ext_value
  intro kind
  rw [value_foldl_apply]
  cases hfind : (Device.changes old new sequence controls).reverse.find?
      fun e => kindAt e.index = some kind with
  | some e =>
    have he := List.mem_reverse.1 (List.mem_of_find?_eq_some hfind)
    have hkind : kindAt e.index = some kind := by simpa using List.find?_some hfind
    obtain ⟨c, hc, rfl⟩ := List.mem_map.1 he
    obtain rfl : c.kind = kind :=
      Option.some.inj ((hat c (List.mem_filter.1 hc).1).symm.trans hkind)
    exact new.stored_value c.kind
  | none =>
    -- No control of this kind has changed, whether there is one or not.
    have hquiet : ∀ c ∈ controls, c.kind = kind → new.value kind = old.value kind := by
      rintro c hc rfl
      by_contra hne
      have hmem : c ∈ controls.filter fun c => new.value c.kind ≠ old.value c.kind :=
        List.mem_filter.2 ⟨hc, decide_eq_true hne⟩
      have hn := List.find?_eq_none.1 hfind _ (List.mem_reverse.2 (List.mem_map_of_mem hmem))
      exact hn (decide_eq_true (hat c hc))
    by_cases hex : ∃ c ∈ controls, c.kind = kind
    · obtain ⟨c, hc, hk⟩ := hex
      exact (hquiet c hc hk).symm
    · exact (hout kind fun c hc hk => hex ⟨c, hc, hk⟩).symm

end Snapshot

def Device.kindAt (d : Device) (index : Nat) : Option Control.Kind :=
  d.layout?.bind (·.kindAt index)

theorem Device.Tuned.kindAt_eq {d : Device} (h : d.Tuned) {l : Layout} (hl : d.layout? = some l) :
    d.kindAt = (Layout.ofMapper l.mapper).kindAt := by
  rw [← (h l hl).kindAt_eq]
  funext index
  simp only [kindAt, hl, Option.bind_some]

namespace Session
open Snapshot (replay)

variable {s : Session} {e : Event} {m : Mapper}

theorem replay_next_read (ht : s.device.Tuned) (hm : ∀ m', s.device.pinned? = some m' → m' = m)
    {events : List ChangeEvent}
    (h : replay (Layout.ofMapper m).kindAt events = s.device.published) :
    replay (Layout.ofMapper m).kindAt (events ++ (s.next .read).1.events) =
      (s.next .read).2.device.published := by
  rcases s.next_read_cases with ⟨-, hn, -, hs⟩ | ⟨l, hl, -, hr, -, hs⟩
  · rw [hn, hs, List.append_nil]
    exact h
  · have hbase := ht l hl
    rw [hm l.mapper (by rw [Device.pinned?, hl, Option.map_some])] at hbase
    rw [hr, hs, replay, List.foldl_append]
    rw [replay] at h
    rw [h]
    apply Snapshot.foldl_apply_changes
    · intro c hc
      rw [← hbase.kindAt_eq]
      exact hbase.kindAt_index hc
    · intro kind hkind
      have hne : ∀ i, (Layout.ofMapper m).kindAt i ≠ some kind := by
        intro i hi
        rw [← hbase.kindAt_eq, Layout.kindAt, Option.map_eq_some_iff] at hi
        obtain ⟨c, hc, hck⟩ := hi
        exact hkind c (List.mem_of_getElem? hc) hck
      rw [Snapshot.value_ofSample_of_notMem hkind, ← h]
      exact (Snapshot.value_replay_of_ne hne events).symm

theorem replay_next (hd : s.device.Coherent) (ht : s.device.Tuned) (hturn : s.turns e = false)
    (hm : ∀ m', s.device.pinned? = some m' → m' = m) {events : List ChangeEvent}
    (h : replay (Layout.ofMapper m).kindAt events = s.device.published) :
    replay (Layout.ofMapper m).kindAt (events ++ (s.next e).1.events) =
      (s.next e).2.device.published := by
  by_cases he : e = .read
  · subst he
    exact replay_next_read ht hm h
  · rw [events_next_of_ne_read s he, List.append_nil, published_next hd he hturn]
    exact h

theorem ne_release_of_not_turns (h : s.turns e = false) : e ≠ .release := by
  rintro rfl
  cases h

theorem replay_of_unturned (hd : s.device.Coherent) (ht : s.device.Tuned)
    (hzero : s.device.published = .zero) {es : List Event} (hes : Unturned s es)
    (hm : ∀ m', (s.after es).device.pinned? = some m' → m' = m) :
    replay (Layout.ofMapper m).kindAt ((s.run es).1.flatMap (·.events)) =
      (s.after es).device.published := by
  -- Before a layout is handed out there are no events, and `m` may be either mapper.
  induction es using List.reverseRecOn with
  | nil => exact hzero.symm
  | append_singleton es e ih =>
    obtain ⟨hes, hturn⟩ := along_concat.1 hes
    have hd := coherent_run hd es
    rw [after_concat] at hm ⊢
    have hm' : ∀ m', (s.after es).device.pinned? = some m' → m' = m :=
      fun m' hp => hm m' (pinned_next hd (ne_release_of_not_turns hturn) hp)
    rw [run_concat, List.flatMap_append, List.flatMap_singleton]
    exact replay_next hd (tuned_run ht es) hturn hm' (ih hes hm')

theorem replay_published (hd : s.device.Coherent) (ht : s.device.Tuned)
    (hzero : s.device.published = .zero) {es : List Event} (hes : Unturned s es) :
    replay (s.after es).device.kindAt ((s.run es).1.flatMap (·.events)) =
      (s.after es).device.published := by
  cases hl : (s.after es).device.layout? with
  | none =>
    have hnone : (s.after es).device.kindAt = fun _ => none := by
      funext index
      simp only [Device.kindAt, hl, Option.bind_none]
    rw [hnone, Snapshot.replay_of_none, ((coherent_run hd es).zero_of_unpinned hl).1]
  | some l =>
    rw [(tuned_run ht es).kindAt_eq hl]
    apply replay_of_unturned hd ht hzero hes
    intro m hm
    rw [Device.pinned?, hl, Option.map_some, Option.some.injEq] at hm
    exact hm.symm

/-! ## Numbers -/

def Outcome.reports (o : Outcome) : Bool := o.events ≠ []

theorem sequence_event {event : ChangeEvent} (h : event ∈ (s.next e).1.events) :
    event.sequence = s.device.sequence + 1 := by
  rcases outcome_next s e with ⟨-, hn⟩ | ⟨l, -, -, hc⟩
  · rw [hn] at h
    cases h
  · rw [hc] at h
    obtain ⟨w, -, rfl⟩ := Device.mem_changes h
    rfl

theorem toNat_sequence_run (hd : s.device.Coherent) (hzero : s.device.sequence = 0)
    {es : List Event} (hes : .release ∉ es) :
    (s.after es).device.sequence.toNat = (s.run es).1.countP (·.reports) % UInt32.size := by
  induction es using List.reverseRecOn with
  | nil =>
    rw [after_nil, hzero]
    rfl
  | append_singleton es e ih =>
    rw [List.mem_append, List.mem_singleton, not_or] at hes
    rw [after_concat, sequence_next (coherent_run hd es) (Ne.symm hes.2), run_concat,
      List.countP_append, List.countP_singleton]
    have ih := ih hes.1
    simp only [Outcome.reports, decide_eq_true_eq, ite_not] at ih ⊢
    split_ifs
    · rw [ih, Nat.add_zero]
    · rw [UInt32.toNat_add, ih]
      exact Nat.mod_add_mod _ _ _

theorem toNat_sequence_event (hd : s.device.Coherent) (hzero : s.device.sequence = 0)
    {es : List Event} (hes : .release ∉ es) {event : ChangeEvent}
    (h : event ∈ ((s.after es).next e).1.events) :
    event.sequence.toNat = (s.run (es ++ [e])).1.countP (·.reports) % UInt32.size := by
  have hreports : ((s.after es).next e).1.reports = true := decide_eq_true (List.ne_nil_of_mem h)
  rw [sequence_event h, UInt32.toNat_add, toNat_sequence_run hd hzero hes, run_concat,
    List.countP_append, List.countP_singleton, if_pos hreports]
  exact Nat.mod_add_mod _ _ _

theorem published_of_opens {es : List Event} {n : Network}
    (h : Opens (fun s e => s.turns e = true) (fresh n) es) :
    ((fresh n).after es).device.published = .zero := by
  rcases h with rfl | ⟨init, e, rfl, hturn⟩
  · rfl
  · rw [after_concat]
    exact published_of_turns hturn

/-- Of any run. Where no binding began or ended since `pre`, the events replay what is published,
which after a read is the sample under the layout. Where nothing was released since `pre`, the
events of a read carry its number among the reads that reported. -/
theorem events_replay (n : Network) (pre mid : List Event) :
    let s := (fresh n).after pre
    let t := s.after mid
    (Opens (fun s e => s.turns e = true) (fresh n) pre → Unturned s mid →
      replay t.device.kindAt ((s.run mid).1.flatMap (·.events)) = t.device.published) ∧
    (∀ changed, (t.next .read).1.read? = some (.updated changed) →
      ∃ l, t.device.layout? = some l ∧
        (t.next .read).2.device.published = .ofSample l t.device.sample) ∧
    (Opens (fun _ e => e = .release) (fresh n) pre → .release ∉ mid →
      ∀ e, ∀ event ∈ (t.next e).1.events,
        event.sequence.toNat = (s.run (mid ++ [e])).1.countP (·.reports) % UInt32.size) := by
  have hd := coherent_run (s := fresh n) .fresh pre
  refine ⟨?_, ?_, ?_⟩
  · intro hpre hmid
    exact replay_published hd (tuned_after n pre) (published_of_opens hpre) hmid
  · intro changed hread
    obtain ⟨l, hl, -, -, hp⟩ := published_next_read hread
    exact ⟨l, hl, hp⟩
  · intro hpre hmid e event hevent
    have hzero : ((fresh n).after pre).device.sequence = 0 := by
      rw [device_of_opens hpre]
      rfl
    exact toNat_sequence_event hd hzero hmid hevent

def rebound : List Event :=
  [.dispatch (Datagram.encodeOffer (some ⟨1, .standard, "pad"⟩)), .enumerate [], .acquire 7,
    .dispatch (Datagram.encodeState 1 1 ⟨3, 2, 100, 0, 0, -5⟩), .read,
    .dispatch Datagram.encodeRelease,
    .dispatch (Datagram.encodeOffer (some ⟨1, .standard, "pad"⟩))]

def playedOn : List Event :=
  [.dispatch (Datagram.encodeState 1 1 ⟨1, 8, 400, 0, 0, 0⟩), .read, .setDeadzone 0 5000, .read,
    .read, .unacquire, .acquire 9,
    .dispatch (Datagram.encodeState 1 1 ⟨0, 8, 400, -9, 0, 0⟩)]

theorem events_replay_rebound :
    Opens (fun s e => s.turns e = true) (fresh .standard) rebound ∧
    Unturned ((fresh .standard).after rebound) playedOn ∧
    Opens (fun _ e => e = .release) (fresh .standard) [] ∧
    .release ∉ rebound ++ playedOn ∧
    let s := (fresh .standard).after rebound
    let t := s.after playedOn
    replay t.device.kindAt ((s.run playedOn).1.flatMap (·.events)) = t.device.published ∧
    (t.next .read).1.read? = some (.updated 2) ∧
    (∃ l, t.device.layout? = some l ∧
      (t.next .read).2.device.published = .ofSample l t.device.sample) ∧
    ∀ event ∈ (((fresh .standard).after (rebound ++ playedOn)).next .read).1.events,
      event.sequence.toNat = 4 := by
  have hpre : Opens (fun s e => s.turns e = true) (fresh .standard) rebound := by
    refine .inr ⟨rebound.dropLast, _, rfl, ?_⟩
    decide +kernel
  have hmid : Unturned ((fresh .standard).after rebound) playedOn := by
    simp only [Unturned, Along, playedOn]
    decide +kernel
  have hrelease : .release ∉ rebound ++ playedOn := by simp [rebound, playedOn]
  have hread : ((((fresh .standard).after rebound).after playedOn).next .read).1.read? =
      some (.updated 2) := by decide +kernel
  have hcount : ((fresh .standard).run (rebound ++ playedOn ++ [.read])).1.countP (·.reports) = 4 := by
    decide +kernel
  obtain ⟨hreplay, hpublished, -⟩ := events_replay .standard rebound playedOn
  obtain ⟨-, -, hnumbers⟩ := events_replay .standard [] (rebound ++ playedOn)
  refine ⟨hpre, hmid, .inl rfl, hrelease, hreplay hpre hmid, hread, hpublished 2 hread, ?_⟩
  intro event hevent
  have hnumber := hnumbers (.inl rfl) hrelease .read event hevent
  rw [after_nil, hcount] at hnumber
  exact hnumber

end Session
end VirtualPad
