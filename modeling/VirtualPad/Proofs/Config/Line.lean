import Mathlib.Tactic.SplitIfs
import VirtualPad.Config.Statement
import VirtualPad.Proofs.Config.Value

/-!
# Documents of single lines

A document of lines `key = value` with bare and distinct keys holds the values under their keys, in
the order of the lines.
-/
namespace VirtualPad.Config

structure Entry where
  key : String
  text : List Char
  node : Node

namespace Entry

def line (e : Entry) : List Char :=
  e.key.toList ++ " = ".toList ++ e.text ++ ['\n']

/-- The key is bare, and the text is read as the node wherever it ends its line. -/
structure Readable (e : Entry) : Prop where
  key_ne : e.key.toList ≠ []
  key_bare : ∀ c ∈ e.key.toList, isBareKeyChar c = true
  text_start : ∀ rest, StopsAt isSpace (e.text ++ '\n' :: rest)
  text_read : ∀ rest,
    Value.read maxNesting (e.text ++ '\n' :: rest) = some ([([], e.node)], '\n' :: rest)

theorem readable_quoted {key : String} {text : List Char} (hne : key.toList ≠ [])
    (hbare : ∀ c ∈ key.toList, isBareKeyChar c = true)
    (htext : ∀ c ∈ text, isUnescaped c = true) (hfull : text ≠ []) :
    Readable ⟨key, quote :: (text ++ [quote]), .text (.ofList text)⟩ where
  key_ne := hne
  key_bare := hbare
  text_start _ := stopsAt_cons (by decide) _
  text_read rest := by
    have hread := Quoted.read_text htext hfull ('\n' :: rest)
    rw [List.cons_append, List.append_assoc, List.singleton_append]
    exact Value.read_text hread maxNesting

theorem readable_toDigits {key : String} {n : Nat} (hne : key.toList ≠ [])
    (hbare : ∀ c ∈ key.toList, isBareKeyChar c = true) (hn : n < 0x8000000000000000) :
    Readable ⟨key, Nat.toDigits 10 n, .integer n⟩ where
  key_ne := hne
  key_bare := hbare
  text_start _ := Decimal.stopsAt_toDigits (by decide) n _
  text_read rest := by
    have hopening : StopsAt Value.isOpening (Nat.toDigits 10 n ++ '\n' :: rest) :=
      Decimal.stopsAt_toDigits (by decide) n _
    rw [Value.read_token hopening, Value.readToken_toDigits hn, Option.map_some]

theorem ne_of_isBareKeyChar {c d : Char} (hc : isBareKeyChar c = true)
    (hd : isBareKeyChar d = false) : c ≠ d := by
  intro h
  rw [h, hd] at hc
  cases hc

def isMark (c : Char) : Bool :=
  isSpace c || Quoted.isQuote c || c = '#' || c = '[' || c = '\n' || c = '\r' || c = '\uFEFF'

theorem isMark_eq_false {c : Char} (hc : isBareKeyChar c = true) : isMark c = false := by
  have hne {d : Char} (hd : isBareKeyChar d = false) : decide (c = d) = false :=
    decide_eq_false (ne_of_isBareKeyChar hc hd)
  simp only [isMark, isSpace, Quoted.isQuote, hne (d := ' ') (by decide),
    hne (d := '\t') (by decide), hne (d := quote) (by decide), hne (d := singleQuote) (by decide),
    hne (d := '#') (by decide), hne (d := '[') (by decide), hne (d := '\n') (by decide),
    hne (d := '\r') (by decide), hne (d := '\uFEFF') (by decide), Bool.or_self]

variable {e : Entry}

theorem Readable.stopsAt_key (h : e.Readable) (rest : List Char) :
    StopsAt isMark (e.key.toList ++ rest) := by
  obtain ⟨c, cs, hkey⟩ := List.exists_cons_of_ne_nil h.key_ne
  rw [hkey]
  exact stopsAt_cons (isMark_eq_false (h.key_bare c (hkey ▸ List.mem_cons_self))) _

theorem skipSpace_of_stopsAt {cs : List Char} (h : StopsAt isMark cs) : skipSpace cs = cs := by
  refine StopsAt.dropWhile_eq fun c hc => ?_
  have hmark := h c hc
  simp only [isMark, Bool.or_eq_false_iff] at hmark
  exact hmark.1.1.1.1.1.1

theorem stopsAt_isQuote {cs : List Char} (h : StopsAt isMark cs) : StopsAt Quoted.isQuote cs := by
  refine h.mono fun c hc => ?_
  simp only [isMark, Bool.or_eq_false_iff] at hc
  exact hc.1.1.1.1.1.2

theorem Readable.readKey_key (h : e.Readable) {rest : List Char} (hr : StopsAt isBareKeyChar rest) :
    readKey (e.key.toList ++ rest) = some (e.key, rest) := by
  simp only [readKey, Quoted.readLine_eq_none (stopsAt_isQuote (h.stopsAt_key rest)),
    takeWhile_append_of_stopsAt h.key_bare hr, dropWhile_append_of_stopsAt h.key_bare hr]
  split
  · next hkey => exact absurd hkey h.key_ne
  · rw [String.ofList_toList]

theorem line_append (e : Entry) (rest : List Char) :
    e.line ++ rest = e.key.toList ++ ' ' :: '=' :: ' ' :: (e.text ++ '\n' :: rest) := by
  simp [line]

theorem Readable.readAssigned_line (h : e.Readable) (rest : List Char) :
    readAssigned (e.line ++ rest) = some (⟨[], e.key⟩, e.text ++ '\n' :: rest) := by
  have hkeys : readKeys maxNesting (e.line ++ rest) =
      some (⟨[], e.key⟩, '=' :: ' ' :: (e.text ++ '\n' :: rest)) := by
    rw [line_append, maxNesting, readKeys, skipSpace_of_stopsAt (h.stopsAt_key _),
      h.readKey_key (stopsAt_cons (by decide) _)]
    rfl
  rw [readAssigned, hkeys]
  change some (_, (e.text ++ '\n' :: rest).dropWhile isSpace) = _
  rw [(h.text_start rest).dropWhile_eq]

theorem Readable.stopsAt_line (h : e.Readable) (rest : List Char) :
    StopsAt isMark (e.line ++ rest) := by
  rw [line_append]
  exact h.stopsAt_key _

theorem Readable.read_line (h : e.Readable) (rest : List Char) :
    Statement.read (e.line ++ rest) =
      some (.assign ⟨[], e.key⟩ [([], e.node)], '\n' :: rest) := by
  rw [Statement.read.eq_def]
  -- A bare key opens no header, so only the case of an assignment is left.
  split
  · next hcs => exact absurd hcs ((h.stopsAt_line rest).head_ne (by decide))
  · next hcs => exact absurd hcs ((h.stopsAt_line rest).head_ne (by decide))
  · simp only [h.readAssigned_line, h.text_read, Option.map_some]

theorem newline?_eq_none {cs : List Char} (h : StopsAt isMark cs) : newline? cs = none := by
  rw [newline?.eq_def]
  split
  · exact absurd rfl (h.head_ne (by decide))
  · exact absurd rfl (h.head_ne (by decide))
  · rfl

theorem lineEnd?_eq_none {cs : List Char} (h : StopsAt isMark cs) (hne : cs ≠ []) :
    Statement.lineEnd? cs = none := by
  simp only [Statement.lineEnd?, skipSpace_of_stopsAt h]
  split
  · next hrest =>
    split at hrest
    · exact absurd rfl (h.head_ne (by decide))
    · exact absurd hrest hne
  · split
    · exact absurd rfl (h.head_ne (by decide))
    · exact newline?_eq_none h

theorem lineEnd?_newline (rest : List Char) : Statement.lineEnd? ('\n' :: rest) = some rest := rfl

def assignment (e : Entry) : Statement := .assign ⟨[], e.key⟩ [([], e.node)]

theorem Readable.readAll_line (h : e.Readable) (fuel : Nat) (rest : List Char) :
    Statement.readAll (fuel + 1) (e.line ++ rest) =
      (Statement.readAll fuel rest).map (e.assignment :: ·) := by
  have hstart := h.stopsAt_line rest
  have hne : e.line ++ rest ≠ [] := by
    rw [line_append]
    exact List.append_ne_nil_of_right_ne_nil _ (List.cons_ne_nil _ _)
  simp only [Statement.readAll, skipSpace_of_stopsAt hstart, if_neg hne,
    lineEnd?_eq_none hstart hne, h.read_line rest, lineEnd?_newline]
  rfl

theorem readAll_lines {entries : List Entry} (h : ∀ e ∈ entries, e.Readable) {fuel : Nat}
    (hf : entries.length < fuel) :
    Statement.readAll fuel (entries.flatMap line) = some (entries.map assignment) := by
  induction entries generalizing fuel with
  | nil =>
    obtain ⟨fuel, rfl⟩ : ∃ m, fuel = m + 1 := ⟨fuel - 1, by omega⟩
    rfl
  | cons e entries ih =>
    obtain ⟨fuel, rfl⟩ : ∃ m, fuel = m + 1 := ⟨fuel - 1, by omega⟩
    obtain ⟨he, hentries⟩ := List.forall_mem_cons.1 h
    rw [List.flatMap_cons, he.readAll_line, ih hentries (Nat.lt_of_succ_lt_succ hf),
      Option.map_some, List.map_cons]

/-! ## The document of the lines -/

def place (e : Entry) : Path × Node := ([.key e.key], e.node)

theorem node?_append (d d' : Document) (p : Path) :
    Document.node? (d ++ d') p = (d.node? p).or (Document.node? d' p) := by
  rw [Document.node?, List.find?_append, Option.map_or]
  rfl

theorem node?_place (e : Entry) (key : String) :
    Document.node? [e.place] [.key key] = if e.key = key then some e.node else none := by
  simp only [Document.node?, place, List.find?_cons, List.find?_nil, List.cons.injEq,
    Step.key.injEq, and_true]
  split_ifs with h
  · simp only [h, decide_true, Option.map_some]
  · simp only [h, decide_false, Option.map_none]

theorem node?_root (key : String) : Document.root.node? [.key key] = none := rfl

theorem assign_place {d : Document} {e : Entry} (h : d.node? [.key e.key] = none) :
    d.assign [] ⟨[], e.key⟩ [([], e.node)] = some (d ++ [e.place]) := by
  simp only [Document.assign, Document.descend, ne_eq, not_true_eq_false, false_and, if_false,
    List.nil_append, h]
  rfl

theorem applyAll_assignments {entries : List Entry} (hn : (entries.map (·.key)).Nodup)
    {d : Document} (hd : ∀ e ∈ entries, d.node? [.key e.key] = none) :
    d.applyAll [] (entries.map assignment) = some (d ++ entries.map place) := by
  induction entries generalizing d with
  | nil => exact congrArg some (List.append_nil d).symm
  | cons e entries ih =>
    obtain ⟨he, hentries⟩ := List.forall_mem_cons.1 hd
    rw [List.map_cons, List.nodup_cons] at hn
    have hfresh : ∀ e' ∈ entries, Document.node? (d ++ [e.place]) [.key e'.key] = none := by
      intro e' he'
      have hne : e.key ≠ e'.key := fun h => hn.1 (h ▸ List.mem_map_of_mem he')
      rw [node?_append, hentries e' he', node?_place, if_neg hne, Option.none_or]
    have hstep : d.apply [] e.assignment = some (d ++ [e.place], []) := by
      rw [assignment, Document.apply, assign_place he, Option.map_some]
    rw [List.map_cons, Document.applyAll, hstep]
    exact (ih hn.2 hfresh).trans (by rw [List.append_assoc, List.map_cons, List.singleton_append])

theorem length_le_lines (entries : List Entry) :
    entries.length ≤ (entries.flatMap line).length := by
  induction entries with
  | nil => exact Nat.le_refl 0
  | cons e entries ih =>
    simp only [List.flatMap_cons, line, List.length_append, List.length_cons]
    omega

theorem stopsAt_lines {entries : List Entry} (h : ∀ e ∈ entries, e.Readable) :
    StopsAt isMark (entries.flatMap line) := by
  cases entries with
  | nil => exact stopsAt_nil _
  | cons e entries =>
    rw [List.flatMap_cons]
    exact (List.forall_mem_cons.1 h).1.stopsAt_line _

theorem ofText?_of_stopsAt {cs : List Char} (h : StopsAt isMark cs) :
    Document.ofText? (.ofList cs) =
      (Statement.readAll (cs.length + 1) cs).bind (Document.root.applyAll []) := by
  -- With this fact at hand the simplifier passes the case of a byte order mark.
  have hmark (cs' : List Char) : cs ≠ '\uFEFF' :: cs' := h.head_ne (by decide)
  simp only [Document.ofText?, String.toList_ofList]
  cases Statement.readAll (cs.length + 1) cs <;> rfl

theorem ofText?_lines {entries : List Entry} (h : ∀ e ∈ entries, e.Readable)
    (hn : (entries.map (·.key)).Nodup) :
    Document.ofText? (.ofList (entries.flatMap line)) =
      some (Document.root ++ entries.map place) := by
  rw [ofText?_of_stopsAt (stopsAt_lines h),
    readAll_lines h (Nat.lt_succ_of_le (length_le_lines entries)), Option.bind_some]
  exact applyAll_assignments hn fun e _ => node?_root e.key

theorem node?_lines (entries : List Entry) (key : String) :
    Document.node? (Document.root ++ entries.map place) [.key key] =
      (entries.find? fun e => e.key = key).map (·.node) := by
  rw [node?_append, node?_root, Option.none_or]
  induction entries with
  | nil => rfl
  | cons e entries ih =>
    rw [List.map_cons, ← List.singleton_append, node?_append, ih, node?_place, List.find?_cons]
    split_ifs with h
    · simp only [h, decide_true, Option.some_or, Option.map_some]
    · simp only [h, decide_false, Option.none_or]

end Entry
end VirtualPad.Config
