import VirtualPad.Bytes.Hex
import VirtualPad.Text.Reader

/-!
# Quoted text

Four forms: between double quotes with escapes, between single quotes as it stands, and both over
several lines between three quotes. A line break right after three opening quotes is left out,
and a line break in such text is one line feed. Three quotes end it, and up to two more before
them belong to it. A backslash at the end of a line leaves out the white space up to the next
other character.
-/
namespace VirtualPad.Config

def quote : Char := '\x22'
def singleQuote : Char := '\x27'
def backslash : Char := '\x5c'

def isSpace (c : Char) : Bool :=
  c = ' ' || c = '\t'

def isPlain (c : Char) : Bool :=
  c = '\t' || (0x20 ≤ c.toNat && c.toNat ≠ 0x7F)

def newline? : List Char → Option (List Char)
  | '\n' :: rest => some rest
  | '\r' :: '\n' :: rest => some rest
  | _ => none

def skipSpace (cs : List Char) : List Char :=
  cs.dropWhile isSpace

namespace Quoted

def escaped? (c : Char) : Option Char :=
  if c = 'b' then some '\x08'
  else if c = 't' then some '\t'
  else if c = 'n' then some '\n'
  else if c = 'f' then some '\x0c'
  else if c = 'r' then some '\r'
  else if c = quote then some quote
  else if c = backslash then some backslash
  else none

/-- The character whose number is written in `digits`; surrogates are none. -/
def scalar? (digits : List Char) : Option Char := do
  let values ← digits.mapM Hex.value?
  let n := values.foldl (fun n v => 16 * n + v) 0
  if n.isValidChar then some (Char.ofNat n) else none

def escape : Reader Char
  | 'u' :: a :: b :: c :: d :: rest => (scalar? [a, b, c, d]).map (·, rest)
  | 'U' :: a :: b :: c :: d :: e :: f :: g :: h :: rest =>
    (scalar? [a, b, c, d, e, f, g, h]).map (·, rest)
  | c :: rest => (escaped? c).map (·, rest)
  | [] => none

def push (c : Char) : Option (List Char × List Char) → Option (List Char × List Char) :=
  Option.map fun (text, rest) => (c :: text, rest)

def basicLine : (fuel : Nat) → Reader (List Char)
  | 0, _ => none
  | _ + 1, [] => none
  | fuel + 1, c :: cs =>
    if c = quote then some ([], cs)
    else if c = backslash then
      match escape cs with
      | some (e, rest) => push e (basicLine fuel rest)
      | none => none
    else if isPlain c then push c (basicLine fuel cs)
    else none

def literalLine : Reader (List Char)
  | [] => none
  | c :: cs =>
    if c = singleQuote then some ([], cs)
    else if isPlain c then push c (literalLine cs)
    else none

/-- The end of text between three quotes `q`, at the first quote of a run of three or more. -/
def closing (q : Char) : Reader (List Char)
  | c0 :: c1 :: c2 :: rest =>
    if c0 = q ∧ c1 = q ∧ c2 = q then
      match rest with
      | d0 :: d1 :: rest' =>
        if d0 = q ∧ d1 = q then some ([q, q], rest')
        else if d0 = q then some ([q], d1 :: rest')
        else some ([], rest)
      | [d0] => if d0 = q then some ([q], []) else some ([], rest)
      | [] => some ([], [])
    else none
  | _ => none

def skipLines : (fuel : Nat) → List Char → List Char
  | 0, cs => cs
  | fuel + 1, cs =>
    match newline? (skipSpace cs) with
    | some rest => skipLines fuel rest
    | none => skipSpace cs

def lines (q : Char) (escapes : Bool) : (fuel : Nat) → Reader (List Char)
  | 0, _ => none
  | fuel + 1, cs =>
    match closing q cs with
    | some found => some found
    | none =>
      match newline? cs with
      | some rest => push '\n' (lines q escapes fuel rest)
      | none =>
        match cs with
        | [] => none
        | c :: cs =>
          if escapes && c = backslash then
            match escape cs with
            | some (e, rest) => push e (lines q escapes fuel rest)
            | none =>
              match newline? (skipSpace cs) with
              | some rest => lines q escapes fuel (skipLines fuel rest)
              | none => none
          else if isPlain c then push c (lines q escapes fuel cs)
          else none

def openedLines (q : Char) (escapes : Bool) (cs : List Char) : Option (List Char × List Char) :=
  lines q escapes (cs.length + 1) ((newline? cs).getD cs)

def readLine : Reader String
  | [] => none
  | c :: cs =>
    if c = quote then (basicLine (cs.length + 1) cs).map fun (text, rest) => (.ofList text, rest)
    else if c = singleQuote then (literalLine cs).map fun (text, rest) => (.ofList text, rest)
    else none

/-- Three quotes always open text of several lines. -/
def read : Reader String := fun cs =>
  match cs with
  | c0 :: c1 :: c2 :: rest =>
    if c0 = c1 ∧ c1 = c2 ∧ (c0 = quote ∨ c0 = singleQuote) then
      (openedLines c0 (c0 = quote) rest).map fun (text, rest) => (.ofList text, rest)
    else readLine cs
  | _ => readLine cs

end Quoted
end VirtualPad.Config
