import VirtualPad.Config.Statement

/-!
# The range of whole numbers

A whole number in a document has 64 bits, wherever in the document it stands. Reading makes only
such numbers, and placing a value adds nothing to it but tables.
-/
namespace VirtualPad.Config

def Node.InRange : Node → Prop
  | .integer i => -0x8000000000000000 ≤ i ∧ i < 0x8000000000000000
  | _ => True

theorem Node.inRange_table (origin : Origin) : (Node.table origin).InRange := trivial

theorem Node.inRange_tables (count : Nat) : (Node.tables count).InRange := trivial

namespace Document
open Node (inRange_table inRange_tables)

def InRange (d : Document) : Prop := ∀ e ∈ d, e.2.InRange

variable {d d' : Document} {p q : Path}

theorem InRange.append (h : d.InRange) (h' : d'.InRange) : InRange (d ++ d') :=
  List.forall_mem_append.2 ⟨h, h'⟩

theorem inRange_singleton {node : Node} (h : node.InRange) : InRange [(p, node)] :=
  List.forall_mem_singleton.2 h

theorem InRange.under (h : d.InRange) (p : Path) : (d.under p).InRange := by
  intro e he
  obtain ⟨e', he', rfl⟩ := List.mem_map.1 he
  exact h e' he'

theorem InRange.replace {node : Node} (h : d.InRange) (hn : node.InRange) :
    (d.replace p node).InRange := by
  intro e he
  obtain ⟨e', he', rfl⟩ := List.mem_map.1 he
  split
  · exact hn
  · exact h e' he'

theorem InRange.node? {node : Node} (h : d.InRange) (hn : d.node? p = some node) :
    node.InRange := by
  obtain ⟨e, he, rfl⟩ := Option.map_eq_some_iff.1 hn
  exact h e (List.mem_of_find?_eq_some he)

theorem InRange.descend {dotted : Bool} {keys : List String} (h : d.InRange)
    (hd : descend dotted d p keys = some (d', q)) : d'.InRange := by
  induction keys generalizing d p with
  | nil =>
    cases hd
    exact h
  | cons k keys ih =>
    rw [Document.descend] at hd
    split at hd
    · exact ih (h.append (inRange_singleton (inRange_table _))) hd
    · exact ih h hd
    · split at hd
      · exact ih h hd
      · cases hd
    · cases hd

theorem InRange.assign {keys : KeyPath} {value : Document} (h : d.InRange) (hv : value.InRange)
    (ha : d.assign p keys value = some d') : d'.InRange := by
  rw [Document.assign] at ha
  split at ha
  · cases ha
  · next hd =>
    split at ha
    · cases ha
    · split at ha
      · cases ha
      · cases ha
        exact (h.descend hd).append (hv.under _)

theorem InRange.openTable {keys : KeyPath} (h : d.InRange)
    (ho : d.openTable keys = some (d', q)) : d'.InRange := by
  rw [Document.openTable] at ho
  split at ho
  · cases ho
  · next hd =>
    dsimp only at ho
    split at ho
    · cases ho
      exact (h.descend hd).append (inRange_singleton (inRange_table _))
    · cases ho
      exact (h.descend hd).replace (inRange_table _)
    · cases ho

theorem InRange.appendTable {keys : KeyPath} (h : d.InRange)
    (ha : d.appendTable keys = some (d', q)) : d'.InRange := by
  rw [Document.appendTable] at ha
  split at ha
  · cases ha
  · next hd =>
    dsimp only at ha
    split at ha
    · cases ha
      refine (h.descend hd).append ?_
      exact (inRange_singleton (inRange_tables 1)).append (inRange_singleton (inRange_table _))
    · cases ha
      refine InRange.append ?_ (inRange_singleton (inRange_table _))
      exact (h.descend hd).replace (inRange_tables _)
    · cases ha

theorem inRange_root : root.InRange := inRange_singleton (inRange_table _)

end Document

/-! ## Values -/

theorem Scalar.integer?_inRange {cs : List Char} {i : Int} (h : integer? cs = some i) :
    (Node.integer i).InRange := by
  obtain ⟨j, -, hj⟩ := Option.bind_eq_some_iff.1 h
  obtain ⟨hrange, ⟨⟩⟩ := Option.ite_none_right_eq_some.1 hj
  exact hrange

namespace Value

theorem ofToken?_inRange {token : List Char} {node : Node} (h : ofToken? token = some node) :
    node.InRange := by
  rw [ofToken?] at h
  repeat' split at h
  all_goals cases h
  · trivial
  · trivial
  · next hi => exact Scalar.integer?_inRange hi
  · trivial
  · trivial

theorem readToken_inRange {cs rest : List Char} {node : Node}
    (h : readToken cs = some (node, rest)) : node.InRange := by
  rw [readToken] at h
  split at h
  · split at h
    · cases h
      trivial
    · cases h
  · obtain ⟨found, hf, ⟨⟩⟩ := Option.map_eq_some_iff.1 h
    exact ofToken?_inRange hf

def ReadsInRange (item : Reader Document) : Prop :=
  ∀ cs d rest, item cs = some (d, rest) → d.InRange

variable {item : Reader Document} {d d' : Document} {cs rest : List Char}

theorem readItems_inRange (hitem : ReadsInRange item) {fuel : Nat} {values : List Document}
    (h : readItems item fuel cs = some (values, rest)) : ∀ value ∈ values, value.InRange := by
  induction fuel generalizing cs values rest with
  | zero => cases h
  | succ fuel ih =>
    rw [readItems] at h
    split at h
    · cases h
      exact List.forall_mem_nil _
    · split at h
      · cases h
      · next hv =>
        have hvalue := hitem _ _ _ hv
        split at h
        · obtain ⟨found, hf, ⟨⟩⟩ := Option.map_eq_some_iff.1 h
          exact List.forall_mem_cons.2 ⟨hvalue, ih hf⟩
        · cases h
          exact List.forall_mem_singleton.2 hvalue
        · cases h

theorem readEntries_inRange (hitem : ReadsInRange item) {fuel : Nat} (hd : d.InRange)
    (h : readEntries item fuel d cs = some (d', rest)) : d'.InRange := by
  induction fuel generalizing cs d with
  | zero => cases h
  | succ fuel ih =>
    rw [readEntries] at h
    split at h
    · cases h
    · split at h
      · cases h
      · next hv =>
        split at h
        · cases h
        · next ha =>
          have hplaced := hd.assign (hitem _ _ _ hv) ha
          split at h
          · exact ih hplaced h
          · cases h
            exact hplaced
          · cases h

theorem ofItems_inRange {values : List Document} (h : ∀ value ∈ values, value.InRange) :
    (ofItems values).InRange := by
  refine List.forall_mem_cons.2 ⟨trivial, fun e he => ?_⟩
  obtain ⟨⟨value, i⟩, hmem, he⟩ := List.mem_flatMap.1 he
  exact (h value (List.fst_mem_of_mem_zipIdx hmem)).under _ e he

theorem inRange_of_token
    (h : (readToken cs).map (fun (node, rest) => ([([], node)], rest)) = some (d, rest)) :
    d.InRange := by
  obtain ⟨⟨node, after⟩, hn, hd⟩ := Option.map_eq_some_iff.1 h
  cases hd
  exact Document.inRange_singleton (readToken_inRange hn)

theorem readsInRange (depth : Nat) : ReadsInRange (read depth) := by
  induction depth using Nat.strongRecOn with
  | ind depth ih =>
    intro cs d rest h
    rw [read.eq_def] at h
    dsimp only at h
    split at h
    · cases h
      exact Document.inRange_singleton trivial
    · split at h
      · obtain ⟨⟨values, after⟩, hv, hd⟩ := Option.map_eq_some_iff.1 h
        cases hd
        exact ofItems_inRange (readItems_inRange (ih _ (Nat.lt_succ_self _)) hv)
      · have hempty : emptyTable.InRange := Document.inRange_singleton (Node.inRange_table _)
        split at h
        · cases h
          exact hempty
        · exact readEntries_inRange (ih _ (Nat.lt_succ_self _)) hempty h
      · exact inRange_of_token h

end Value

/-! ## Statements -/

namespace Statement

def InRange : Statement → Prop
  | .assign _ value => value.InRange
  | _ => True

theorem read_inRange {cs rest : List Char} {s : Statement} (h : read cs = some (s, rest)) :
    s.InRange := by
  rw [read.eq_def] at h
  split at h
  · split at h
    · cases h
      trivial
    · cases h
  · split at h
    · cases h
      trivial
    · cases h
  · split at h
    · cases h
    · obtain ⟨⟨value, after⟩, hv, hs⟩ := Option.map_eq_some_iff.1 h
      cases hs
      exact Value.readsInRange _ _ _ _ hv

theorem readAll_inRange {fuel : Nat} {cs : List Char} {statements : List Statement}
    (h : readAll fuel cs = some statements) : ∀ s ∈ statements, s.InRange := by
  induction fuel generalizing cs statements with
  | zero => cases h
  | succ fuel ih =>
    rw [readAll] at h
    split at h
    · cases h
      exact List.forall_mem_nil _
    · split at h
      · exact ih h
      · split at h
        · cases h
        · next hs =>
          split at h
          · cases h
          · obtain ⟨later, hl, rfl⟩ := Option.map_eq_some_iff.1 h
            exact List.forall_mem_cons.2 ⟨read_inRange hs, ih hl⟩

end Statement

namespace Document

variable {d d' : Document} {p q : Path}

theorem InRange.apply {s : Statement} (h : d.InRange) (hs : s.InRange)
    (ha : d.apply p s = some (d', q)) : d'.InRange := by
  cases s with
  | assign keys value =>
    obtain ⟨placed, hp, hd⟩ := Option.map_eq_some_iff.1 ha
    cases hd
    exact h.assign hs hp
  | openTable keys => exact h.openTable ha
  | appendTable keys => exact h.appendTable ha

theorem InRange.applyAll {statements : List Statement} (h : d.InRange)
    (hs : ∀ s ∈ statements, s.InRange) (ha : d.applyAll p statements = some d') :
    d'.InRange := by
  induction statements generalizing d p with
  | nil =>
    cases ha
    exact h
  | cons s statements ih =>
    obtain ⟨hfirst, hlater⟩ := List.forall_mem_cons.1 hs
    rw [Document.applyAll] at ha
    split at ha
    · cases ha
    · next hstep => exact ih (h.apply hfirst hstep) hlater ha

theorem ofText?_inRange {text : String} (h : ofText? text = some d) : d.InRange := by
  rw [ofText?] at h
  split at h
  · cases h
  · next hs => exact inRange_root.applyAll (Statement.readAll_inRange hs) h

end Document
end VirtualPad.Config
