import VirtualPad.Config.Document
import VirtualPad.Config.Quoted
import VirtualPad.Config.Scalar

/-!
# Keys and values

A key is bare or quoted, and keys are joined by points. A value is quoted text, an array, a table
between braces, or a token. Arrays and tables are nested less than 80 deep, and less than 80 keys
are joined.
-/
namespace VirtualPad.Config

def maxNesting : Nat := 79

def isBareKeyChar (c : Char) : Bool :=
  c.isAlphanum || c = '_' || c = '-'

def readKey : Reader String := fun cs =>
  match Quoted.readLine cs with
  | some found => some found
  | none =>
    match cs.takeWhile isBareKeyChar with
    | [] => none
    | key => some (.ofList key, cs.dropWhile isBareKeyChar)

def readKeys : (limit : Nat) → Reader KeyPath
  | 0, _ => none
  | limit + 1, cs =>
    match readKey (skipSpace cs) with
    | none => none
    | some (key, rest) =>
      match skipSpace rest with
      | '.' :: rest =>
        (readKeys limit rest).map fun (keys, rest) => (⟨key :: keys.parents, keys.last⟩, rest)
      | rest => some (⟨[], key⟩, rest)

def readAssigned : Reader KeyPath := fun cs =>
  match readKeys maxNesting cs with
  | some (keys, '=' :: rest) => some (keys, skipSpace rest)
  | _ => none

namespace Value

def isTokenChar (c : Char) : Bool :=
  c.isAlphanum || c = '+' || c = '-' || c = '.' || c = '_' || c = ':'

def ofToken? (token : List Char) : Option Node :=
  if token = "true".toList then some (.boolean true)
  else if token = "false".toList then some (.boolean false)
  else
    match Scalar.integer? token with
    | some i => some (.integer i)
    | none =>
      if Scalar.isFloat token then some .float
      else if Scalar.isMoment token then some .moment
      else none

/-- A time may follow its date after one space. -/
def startsTime : List Char → Bool
  | ' ' :: h0 :: h1 :: ':' :: _ => h0.isDigit && h1.isDigit
  | _ => false

def readToken : Reader Node := fun cs =>
  let token := cs.takeWhile isTokenChar
  let rest := cs.dropWhile isTokenChar
  if Scalar.isDate token && startsTime rest then
    if Scalar.isTimeOfDate ((rest.drop 1).takeWhile isTokenChar) then
      some (.moment, (rest.drop 1).dropWhile isTokenChar)
    else none
  else (ofToken? token).map (·, rest)

/-- Drops white space, line breaks and whole comments. The flag says whether a comment is open. -/
def skipFiller : Bool → List Char → List Char
  | _, [] => []
  | _, '\r' :: '\n' :: rest => skipFiller false rest
  | inComment, c :: rest =>
    if c = '\n' then skipFiller false rest
    else if inComment then
      if isPlain c then skipFiller true rest else c :: rest
    else if isSpace c then skipFiller false rest
    else if c = '#' then skipFiller true rest
    else c :: rest

/-- The items of an array, after its bracket. A comma may follow the last one. -/
def readItems (item : Reader Document) : (fuel : Nat) → Reader (List Document)
  | 0, _ => none
  | fuel + 1, cs =>
    match skipFiller false cs with
    | ']' :: rest => some ([], rest)
    | cs =>
      match item cs with
      | none => none
      | some (value, rest) =>
        match skipFiller false rest with
        | ',' :: rest =>
          (readItems item fuel rest).map fun (values, rest) => (value :: values, rest)
        | ']' :: rest => some ([value], rest)
        | _ => none

/-- The entries of a table between braces, placed in `d`. No comma follows the last one. -/
def readEntries (item : Reader Document) : (fuel : Nat) → Document → Reader Document
  | 0, _, _ => none
  | fuel + 1, d, cs =>
    match readAssigned cs with
    | none => none
    | some (keys, rest) =>
      match item rest with
      | none => none
      | some (value, rest) =>
        match d.assign [] keys value with
        | none => none
        | some d =>
          match skipSpace rest with
          | ',' :: rest => readEntries item fuel d rest
          | '}' :: rest => some (d, rest)
          | _ => none

def ofItems (values : List Document) : Document :=
  ([], .array) :: (values.zipIdx.flatMap fun (value, i) => value.under [.item i])

def emptyTable : Document := [([], .table .inline)]

def read : (depth : Nat) → Reader Document
  | depth, cs =>
    match Quoted.read cs with
    | some (text, rest) => some ([([], .text text)], rest)
    | none =>
      match depth, cs with
      | depth + 1, '[' :: rest =>
        (readItems (read depth) (rest.length + 1) rest).map fun (values, rest) =>
          (ofItems values, rest)
      | depth + 1, '{' :: rest =>
        match skipSpace rest with
        | '}' :: rest => some (emptyTable, rest)
        | _ => readEntries (read depth) (rest.length + 1) emptyTable rest
      | _, _ => (readToken cs).map fun (node, rest) => ([([], node)], rest)

end Value
end VirtualPad.Config
