import VirtualPad.Config.Value

/-!
# Statements

A configuration text is a TOML document, a sequence of lines: blank, a comment, a header that opens
a table, or a key with its value in the table that was opened last. A byte order mark may come
first.
-/
namespace VirtualPad.Config

inductive Statement where
  | assign (keys : KeyPath) (value : Document)
  | openTable (keys : KeyPath)
  | appendTable (keys : KeyPath)

namespace Statement

def lineEnd? (cs : List Char) : Option (List Char) :=
  let rest := match skipSpace cs with
    | '#' :: rest => rest.dropWhile isPlain
    | rest => rest
  match rest with
  | [] => some []
  | rest => newline? rest

def read : Reader Statement
  | '[' :: '[' :: cs =>
    match readKeys maxNesting cs with
    | some (keys, ']' :: ']' :: rest) => some (.appendTable keys, rest)
    | _ => none
  | '[' :: cs =>
    match readKeys maxNesting cs with
    | some (keys, ']' :: rest) => some (.openTable keys, rest)
    | _ => none
  | cs =>
    match readAssigned cs with
    | none => none
    | some (keys, rest) =>
      (Value.read maxNesting rest).map fun (value, rest) => (.assign keys value, rest)

def readAll : (fuel : Nat) → List Char → Option (List Statement)
  | 0, _ => none
  | fuel + 1, cs =>
    if skipSpace cs = [] then some []
    else
      match lineEnd? cs with
      | some rest => readAll fuel rest
      | none =>
        match read (skipSpace cs) with
        | none => none
        | some (statement, rest) =>
          match lineEnd? rest with
          | none => none
          | some rest => (readAll fuel rest).map (statement :: ·)

end Statement

namespace Document

def apply (d : Document) (p : Path) : Statement → Option (Document × Path)
  | .assign keys value => (d.assign p keys value).map (·, p)
  | .openTable keys => d.openTable keys
  | .appendTable keys => d.appendTable keys

def applyAll : Document → Path → List Statement → Option Document
  | d, _, [] => some d
  | d, p, s :: rest =>
    match d.apply p s with
    | none => none
    | some (d, p) => applyAll d p rest

def ofText? (text : String) : Option Document :=
  let cs := match text.toList with
    | '\uFEFF' :: cs => cs
    | cs => cs
  match Statement.readAll (cs.length + 1) cs with
  | none => none
  | some statements => applyAll root [] statements

end Document
end VirtualPad.Config
