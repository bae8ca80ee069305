import VirtualPad.Text.Blank
import VirtualPad.Text.Decimal

/-!
# Severities

How much is logged: named in letters of either case, or by a number from 1 to 5, with white space
around. Whatever else is asked for means `info`.
-/
namespace VirtualPad

inductive Severity where
  | error
  | warn
  | info
  | debug
  | trace
  deriving DecidableEq

namespace Severity

def all : List Severity := [.error, .warn, .info, .debug, .trace]

def name : Severity → String
  | .error => "ERROR"
  | .warn => "WARN"
  | .info => "INFO"
  | .debug => "DEBUG"
  | .trace => "TRACE"

/-- Numbers start at 1 and may have a plus sign. -/
def ofNumber? (cs : List Char) : Option Severity :=
  let digits := match cs with
    | '+' :: rest => rest
    | cs => cs
  match Decimal.toNat? digits with
  | some (n + 1) => all[n]?
  | _ => none

def ofName? (cs : List Char) : Option Severity :=
  all.find? fun s => s.name.toList = cs.map Char.toUpper

def ofText? (text : String) : Option Severity :=
  let cs := Text.trim text.toList
  (ofNumber? cs).or (ofName? cs)

def choose (text? : Option String) : Severity :=
  (text?.bind ofText?).getD .info

end Severity
end VirtualPad
