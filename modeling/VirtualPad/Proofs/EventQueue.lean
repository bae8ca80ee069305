import Mathlib.Data.List.Basic
import VirtualPad.EventQueue

/-!
# What becomes of events

Events leave a queue in the order in which they were pushed. One is delivered by a pop or a drain,
evicted by a push that finds the queue full, or discarded with a drain that is given up. What has
not left is still queued.
-/
namespace VirtualPad
namespace EventQueue

/-! ## Room -/

structure Bounded (q : EventQueue) : Prop where
  capacity_pos : 0 < q.capacity
  size_le : q.size ≤ q.capacity

theorem bounded_ofCapacity (capacity : Nat) : (ofCapacity capacity).Bounded where
  capacity_pos := Nat.le_max_right capacity 1
  size_le := Nat.zero_le _

variable {q : EventQueue}

theorem push_of_room (h : q.size < q.capacity) (e : ChangeEvent) :
    q.push e = { q with events := q.events ++ [e] } :=
  if_neg (Nat.not_le.2 h)

theorem push_of_full (h : q.size = q.capacity) (e : ChangeEvent) :
    q.push e = { q with events := q.events.drop 1 ++ [e], overflowed := true } :=
  if_pos (Nat.le_of_eq h.symm)

theorem Bounded.exists_oldest (h : q.Bounded) (hf : q.size = q.capacity) :
    ∃ oldest rest, q.events = oldest :: rest := by
  apply List.exists_cons_of_length_pos
  have := h.capacity_pos
  rwa [← hf] at this

theorem Bounded.room_or_full (h : q.Bounded) : q.size < q.capacity ∨ q.size = q.capacity :=
  Nat.lt_or_eq_of_le h.size_le

theorem bounded_push (h : q.Bounded) (e : ChangeEvent) : (q.push e).Bounded := by
  rcases h.room_or_full with hr | hf
  · rw [push_of_room hr]
    refine ⟨h.capacity_pos, ?_⟩
    simp only [size, List.length_append, List.length_singleton]
    exact hr
  · rw [push_of_full hf]
    refine ⟨h.capacity_pos, ?_⟩
    have := h.capacity_pos
    simp only [size] at hf
    simp only [size, List.length_append, List.length_drop, List.length_singleton]
    omega

theorem Bounded.events_push (h : q.Bounded) (e : ChangeEvent) :
    (q.push e).events = (q.events ++ [e]).drop ((q.events ++ [e]).length - q.capacity) := by
  rw [List.length_append, List.length_singleton]
  rcases h.room_or_full with hr | hf
  · have hsize : q.events.length + 1 ≤ q.capacity := hr
    rw [push_of_room hr, Nat.sub_eq_zero_of_le hsize, List.drop_zero]
  · obtain ⟨oldest, rest, he⟩ := h.exists_oldest hf
    rw [push_of_full hf, (show q.events.length = q.capacity from hf), Nat.add_sub_cancel_left, he]
    rfl

theorem capacity_push (q : EventQueue) (e : ChangeEvent) : (q.push e).capacity = q.capacity := by
  simp only [push]
  split <;> rfl

/-- Leaving out the oldest now and later is leaving them out at once. -/
theorem drop_append_drop {α : Type} (xs ys : List α) (room : Nat) :
    (xs.drop (xs.length - room) ++ ys).drop ((xs.drop (xs.length - room) ++ ys).length - room) =
      (xs ++ ys).drop ((xs ++ ys).length - room) := by
  rw [← List.drop_append_of_le_length (Nat.sub_le _ _), List.drop_drop, List.length_drop]
  congr 1
  simp only [List.length_append]
  omega

theorem Bounded.events_foldl_push (h : q.Bounded) (es : List ChangeEvent) :
    (es.foldl push q).events =
      (q.events ++ es).drop ((q.events ++ es).length - q.capacity) := by
  induction es generalizing q with
  | nil =>
    have hsize : q.events.length ≤ q.capacity := h.size_le
    rw [List.append_nil, Nat.sub_eq_zero_of_le hsize]
    rfl
  | cons e es ih =>
    rw [List.foldl_cons, ih (bounded_push h e), capacity_push, h.events_push, drop_append_drop,
      List.append_assoc, List.singleton_append]

/-! ## Operations -/

theorem pop_eq (q : EventQueue) : q.pop = (q.events.head?, { q with events := q.events.tail }) := by
  rw [pop, List.drop_one]

theorem drainAll_eq (q : EventQueue) : q.drainAll = (q.events, { q with events := [] }) := by
  rw [drainAll, drain, size, List.take_length]

inductive Op where
  | push (e : ChangeEvent)
  | pop
  /-- A drain that is given up when `count` events are taken from it. -/
  | drain (count : Nat)
  | drainAll
  | takeOverflow
  deriving DecidableEq

def Op.pushed : Op → List ChangeEvent
  | .push e => [e]
  | .pop | .drain _ | .drainAll | .takeOverflow => []

def next (q : EventQueue) : Op → List ChangeEvent × EventQueue
  | .push e => ([], q.push e)
  | .pop => (q.pop.1.toList, q.pop.2)
  | .drain count => q.drain count
  | .drainAll => q.drainAll
  | .takeOverflow => ([], q.takeOverflow.2)

def run : EventQueue → List Op → List ChangeEvent × EventQueue
  | q, [] => ([], q)
  | q, op :: ops =>
    let (given, q) := q.next op
    let (later, q) := run q ops
    (given ++ later, q)

def after (q : EventQueue) (ops : List Op) : EventQueue := (q.run ops).2

theorem after_cons (q : EventQueue) (op : Op) (ops : List Op) :
    q.after (op :: ops) = (q.next op).2.after ops := rfl

theorem after_append (q : EventQueue) (ops ops' : List Op) :
    q.after (ops ++ ops') = (q.after ops).after ops' := by
  induction ops generalizing q with
  | nil => rfl
  | cons op ops ih => exact ih _

theorem bounded_next (h : q.Bounded) (op : Op) : (q.next op).2.Bounded := by
  cases op with
  | push e => exact bounded_push h e
  | pop =>
    refine ⟨h.capacity_pos, ?_⟩
    have hsize : q.events.length ≤ q.capacity := h.size_le
    simp only [next, pop, size, List.length_drop]
    omega
  | drain count => exact ⟨h.capacity_pos, Nat.zero_le _⟩
  | drainAll => exact ⟨h.capacity_pos, Nat.zero_le _⟩
  | takeOverflow => exact ⟨h.capacity_pos, h.size_le⟩

theorem bounded_after (h : q.Bounded) (ops : List Op) : (q.after ops).Bounded := by
  induction ops generalizing q with
  | nil => exact h
  | cons op ops ih => exact ih (bounded_next h op)

theorem capacity_next (q : EventQueue) (op : Op) : (q.next op).2.capacity = q.capacity := by
  cases op with
  | push e => exact capacity_push q e
  | _ => rfl

theorem capacity_after (q : EventQueue) (ops : List Op) : (q.after ops).capacity = q.capacity := by
  induction ops generalizing q with
  | nil => rfl
  | cons op ops ih => rw [after_cons, ih, capacity_next]

/-! ## Departures -/

inductive Fate where
  | delivered
  | evicted
  | discarded
  deriving DecidableEq

structure Departure where
  event : ChangeEvent
  fate : Fate
  deriving DecidableEq

/-- What leaves with an operation: what it gives out, the oldest events that a push makes go
missing, and what a drain has not given out. -/
def departures (q : EventQueue) : Op → List Departure
  | .push e => (q.events.take (q.size + 1 - (q.push e).size)).map (⟨·, .evicted⟩)
  | .pop => q.pop.1.toList.map (⟨·, .delivered⟩)
  | .drain count =>
    (q.drain count).1.map (⟨·, .delivered⟩) ++ (q.events.drop count).map (⟨·, .discarded⟩)
  | .drainAll => q.drainAll.1.map (⟨·, .delivered⟩)
  | .takeOverflow => []

def log : EventQueue → List Op → List Departure
  | _, [] => []
  | q, op :: ops => q.departures op ++ log (q.next op).2 ops

def Departure.isDelivered (d : Departure) : Bool := d.fate = .delivered
def Departure.isEvicted (d : Departure) : Bool := d.fate = .evicted

theorem departures_push_of_room (hr : q.size < q.capacity) (e : ChangeEvent) :
    q.departures (.push e) = [] := by
  simp [departures, push_of_room hr, size]

theorem Bounded.departures_push_of_full (h : q.Bounded) (hf : q.size = q.capacity)
    (e : ChangeEvent) :
    ∃ oldest rest, q.events = oldest :: rest ∧ q.departures (.push e) = [⟨oldest, .evicted⟩] ∧
      (q.push e).events = rest ++ [e] := by
  obtain ⟨oldest, rest, he⟩ := h.exists_oldest hf
  refine ⟨oldest, rest, he, ?_, ?_⟩
  · simp [departures, push_of_full hf, size, he]
  · simp [push_of_full hf, he]

theorem not_isEvicted_of_not_push {op : Op} (hop : op.pushed = []) {d : Departure}
    (hd : d ∈ q.departures op) : d.isEvicted = false := by
  cases op with
  | push e => cases hop
  | pop =>
    obtain ⟨e, -, rfl⟩ := List.mem_map.1 hd
    rfl
  | drain count =>
    rcases List.mem_append.1 hd with hd | hd <;> obtain ⟨e, -, rfl⟩ := List.mem_map.1 hd <;> rfl
  | drainAll =>
    obtain ⟨e, -, rfl⟩ := List.mem_map.1 hd
    rfl
  | takeOverflow => cases hd

theorem any_isEvicted_of_not_push {op : Op} (hop : op.pushed = []) :
    (q.departures op).any (·.isEvicted) = false :=
  List.any_eq_false.2 fun _ hd => by simp [not_isEvicted_of_not_push hop hd]

theorem Bounded.conserved_next (h : q.Bounded) (op : Op) :
    q.events ++ op.pushed = (q.departures op).map (·.event) ++ (q.next op).2.events := by
  cases op with
  | push e =>
    rcases h.room_or_full with hr | hf
    · rw [departures_push_of_room hr, next, push_of_room hr]
      rfl
    · obtain ⟨oldest, rest, he, hd, hp⟩ := h.departures_push_of_full hf e
      rw [hd, next, hp, he]
      rfl
  | pop => cases he : q.events <;> simp [Op.pushed, departures, next, pop_eq, he]
  | drain count => simp [Op.pushed, departures, next, drain, Function.comp_def]
  | drainAll => simp [Op.pushed, departures, next, drainAll_eq, Function.comp_def]
  | takeOverflow => simp [Op.pushed, departures, next, takeOverflow]

theorem Bounded.conserved_run (h : q.Bounded) (ops : List Op) :
    q.events ++ ops.flatMap Op.pushed = (q.log ops).map (·.event) ++ (q.after ops).events := by
  induction ops generalizing q with
  | nil => simp [log, after, run]
  | cons op ops ih =>
    rw [List.flatMap_cons, ← List.append_assoc, h.conserved_next op, List.append_assoc,
      ih (bounded_next h op), log, List.map_append, List.append_assoc, after_cons]

theorem delivered_next (q : EventQueue) (op : Op) :
    (q.next op).1 = ((q.departures op).filter (·.isDelivered)).map (·.event) := by
  have hsame : ∀ es : List ChangeEvent,
      ((es.map (Departure.mk · .delivered)).filter (·.isDelivered)).map (·.event) = es := by
    intro es
    simp [List.filter_map, Function.comp_def, Departure.isDelivered]
  have hnone : ∀ (es : List ChangeEvent) (fate : Fate), fate ≠ .delivered →
      (es.map (Departure.mk · fate)).filter (·.isDelivered) = [] := by
    intro es fate hfate
    simp [List.filter_map, Function.comp_def, Departure.isDelivered, hfate]
  cases op with
  | push e => rw [departures, hnone _ _ (by decide)]; rfl
  | pop => exact (hsame _).symm
  | drain count =>
    rw [departures, List.filter_append, hnone _ .discarded (by decide), List.append_nil, hsame]
    rfl
  | drainAll => exact (hsame _).symm
  | takeOverflow => rfl

theorem delivered_run (q : EventQueue) (ops : List Op) :
    (q.run ops).1 = ((q.log ops).filter (·.isDelivered)).map (·.event) := by
  induction ops generalizing q with
  | nil => rfl
  | cons op ops ih =>
    rw [log, List.filter_append, List.map_append, ← delivered_next, ← ih]
    rfl

theorem Bounded.events_after (h : q.Bounded) (ops : List Op) :
    (q.after ops).events =
      (q.events ++ ops.flatMap Op.pushed).drop (q.log ops).length := by
  rw [h.conserved_run ops]
  exact (List.drop_left' (List.length_map _)).symm

/-! ## The flag -/

theorem Bounded.overflowed_next (h : q.Bounded) {op : Op} (hop : op ≠ .takeOverflow) :
    (q.next op).2.overflowed = (q.overflowed || (q.departures op).any (·.isEvicted)) := by
  cases op with
  | push e =>
    rcases h.room_or_full with hr | hf
    · rw [departures_push_of_room hr, next, push_of_room hr]
      exact (Bool.or_false _).symm
    · obtain ⟨oldest, rest, -, hd, -⟩ := h.departures_push_of_full hf e
      rw [hd, next, push_of_full hf]
      exact (Bool.or_true _).symm
  | pop => rw [any_isEvicted_of_not_push rfl, Bool.or_false, next, pop]
  | drain count => rw [any_isEvicted_of_not_push rfl, Bool.or_false, next, drain]
  | drainAll => rw [any_isEvicted_of_not_push rfl, Bool.or_false, next, drainAll, drain]
  | takeOverflow => exact absurd rfl hop

theorem Bounded.overflowed_after (h : q.Bounded) {ops : List Op} (hops : .takeOverflow ∉ ops) :
    (q.after ops).overflowed = (q.overflowed || (q.log ops).any (·.isEvicted)) := by
  induction ops generalizing q with
  | nil => exact (Bool.or_false _).symm
  | cons op ops ih =>
    rw [List.mem_cons, not_or] at hops
    rw [after_cons, ih (bounded_next h op) hops.2, h.overflowed_next (Ne.symm hops.1), log,
      List.any_append, Bool.or_assoc]

/-- Nobody has asked yet, or someone has asked just now. -/
def Asked (ops : List Op) : Prop := ops = [] ∨ ∃ init, ops = init ++ [.takeOverflow]

theorem overflowed_of_asked {ops : List Op} (h : Asked ops) (capacity : Nat) :
    ((ofCapacity capacity).after ops).overflowed = false := by
  rcases h with rfl | ⟨init, rfl⟩
  · rfl
  · rw [after_append]
    rfl

/-- Of any run of a new queue. What was pushed is what has left and then what is queued, in one
order; a push evicts the oldest event exactly when it finds the queue full, and nothing else evicts;
a pop gives out the oldest that is queued and a drain all of them, from the oldest on until it is
given up; and the flag tells of evictions since it was last asked for. -/
theorem run_accounts_for_events (capacity : Nat) (ops : List Op) :
    let q := (ofCapacity capacity).after ops
    let given := ((ofCapacity capacity).run ops).1
    let log := (ofCapacity capacity).log ops
    let waiting := (ops.flatMap Op.pushed).drop log.length
    q.size ≤ max capacity 1 ∧
    ops.flatMap Op.pushed = log.map (·.event) ++ q.events ∧
    given = (log.filter (·.isDelivered)).map (·.event) ∧
    given.Sublist (ops.flatMap Op.pushed) ∧
    (∀ e, q.size = max capacity 1 →
      ∃ oldest rest, q.events = oldest :: rest ∧ q.departures (.push e) = [⟨oldest, .evicted⟩] ∧
        (q.push e).events = rest ++ [e]) ∧
    (∀ op, op.pushed = [] ∨ q.size < max capacity 1 →
      ∀ d ∈ q.departures op, d.isEvicted = false) ∧
    q.pop = (waiting.head?, { q with events := waiting.tail }) ∧
    (∀ count, q.drain count = (waiting.take count, { q with events := [] })) ∧
    q.drainAll = (waiting, { q with events := [] }) ∧
    ∀ before since, ops = before ++ since → Asked before → .takeOverflow ∉ since →
      (q.takeOverflow.1 = true ↔
        ∃ d ∈ ((ofCapacity capacity).after before).log since, d.isEvicted = true) := by
  have hnew := bounded_ofCapacity capacity
  have hq := bounded_after hnew ops
  have hcapacity : ((ofCapacity capacity).after ops).capacity = max capacity 1 :=
    capacity_after (ofCapacity capacity) ops
  have hconserved := hnew.conserved_run ops
  have hgiven := delivered_run (ofCapacity capacity) ops
  have hwaiting : ((ofCapacity capacity).after ops).events =
      (ops.flatMap Op.pushed).drop ((ofCapacity capacity).log ops).length :=
    hnew.events_after ops
  refine ⟨hcapacity ▸ hq.size_le, hconserved, hgiven, ?_, ?_, ?_, ?_, ?_, ?_, ?_⟩
  · rw [hgiven]
    have hpushed : ops.flatMap Op.pushed = _ := hconserved
    rw [hpushed]
    exact (List.filter_sublist.map _).trans (List.sublist_append_left _ _)
  · intro e hf
    exact hq.departures_push_of_full (hf.trans hcapacity.symm) e
  · rintro op (hop | hr) d hd
    · exact not_isEvicted_of_not_push hop hd
    · cases op with
      | push e =>
        rw [departures_push_of_room (Nat.lt_of_lt_of_eq hr hcapacity.symm)] at hd
        cases hd
      | _ => exact not_isEvicted_of_not_push rfl hd
  · rw [← hwaiting]
    exact pop_eq _
  · intro count
    rw [← hwaiting]
    rfl
  · rw [← hwaiting]
    exact drainAll_eq _
  · rintro before since rfl hbefore hsince
    have hflag := (bounded_after hnew before).overflowed_after hsince
    rw [overflowed_of_asked hbefore, Bool.false_or, ← after_append] at hflag
    rw [← List.any_eq_true, ← hflag]
    rfl

def numbered (n : Nat) : ChangeEvent := ⟨n, 0, .ofNat n, .ofNat n⟩

def lossy : List Op :=
  [.push (numbered 1), .push (numbered 2), .push (numbered 3), .takeOverflow]

def lossyAgain : List Op :=
  [.pop, .push (numbered 4), .push (numbered 5), .drain 1, .push (numbered 6)]

theorem run_accounts_for_events_lossy :
    Asked lossy ∧ .takeOverflow ∉ lossyAgain ∧
    ((ofCapacity 2).log (lossy ++ lossyAgain)).map (fun d => (d.event.index, d.fate)) =
      [(1, .evicted), (2, .delivered), (3, .evicted), (4, .delivered), (5, .discarded)] ∧
    ((ofCapacity 2).after lossy).size = 2 ∧
    ((ofCapacity 2).after lossy).departures (.push (numbered 4)) = [⟨numbered 2, .evicted⟩] ∧
    ((ofCapacity 2).after lossy).pop.1 = some (numbered 2) ∧
    ((ofCapacity 2).after lossy).drainAll.1 = [numbered 2, numbered 3] ∧
    ((ofCapacity 2).after (lossy ++ lossyAgain)).takeOverflow.1 = true := by
  have hasked : Asked lossy := .inr ⟨lossy.dropLast, rfl⟩
  have hsince : .takeOverflow ∉ lossyAgain := by decide
  have hlog : ((ofCapacity 2).log (lossy ++ lossyAgain)).map (fun d => (d.event.index, d.fate)) =
      [(1, .evicted), (2, .delivered), (3, .evicted), (4, .delivered), (5, .discarded)] := by
    decide +kernel
  have hfull : ((ofCapacity 2).after lossy).size = 2 := by decide
  obtain ⟨-, -, -, -, hevicts, -, hpop, -, hdrain, -⟩ := run_accounts_for_events 2 lossy
  obtain ⟨-, -, -, -, -, -, -, -, -, hflag⟩ := run_accounts_for_events 2 (lossy ++ lossyAgain)
  obtain ⟨oldest, rest, he, hd, -⟩ := hevicts (numbered 4) hfull
  have holdest : ((ofCapacity 2).after lossy).events.head? = some (numbered 2) := by decide +kernel
  rw [he, List.head?_cons, Option.some.injEq] at holdest
  refine ⟨hasked, hsince, hlog, hfull, holdest ▸ hd, (congrArg Prod.fst hpop).trans ?_,
    (congrArg Prod.fst hdrain).trans ?_, ?_⟩
  · decide +kernel
  · decide +kernel
  refine (hflag lossy lossyAgain rfl hasked hsince).2 ⟨⟨numbered 3, .evicted⟩, ?_, rfl⟩
  decide +kernel

end EventQueue
end VirtualPad
