/-!
# Configuration documents

A document lists its nodes, each under the path that leads to it. A table may be opened once, by
its own header, by the headers of tables inside it, or by dotted keys, and what opened it decides
who may add to it. A table or an array that is written as a value is closed. The value of a key is
a document of its own until it is placed.
-/
namespace VirtualPad.Config

inductive Origin where
  /-- Its own header. -/
  | header
  /-- The header of a table inside it. -/
  | implied
  | dotted
  | inline
  deriving DecidableEq

inductive Node where
  | text (value : String)
  | integer (value : Int)
  | boolean (value : Bool)
  | float
  | moment
  | array
  | table (origin : Origin)
  /-- Tables under one header each, `count` of them so far. -/
  | tables (count : Nat)
  deriving DecidableEq

inductive Step where
  | key (name : String)
  | item (index : Nat)
  deriving DecidableEq

abbrev Path := List Step
abbrev Document := List (Path × Node)

structure KeyPath where
  parents : List String
  last : String
  deriving DecidableEq

namespace Document

def root : Document := [([], .table .header)]

def node? (d : Document) (p : Path) : Option Node :=
  (d.find? fun e => e.1 = p).map (·.2)

def under (p : Path) (d : Document) : Document :=
  d.map fun (q, node) => (p ++ q, node)

def children (d : Document) (p : Path) : List Step :=
  d.filterMap fun (q, _) =>
    match q.getLast? with
    | some step => if q.dropLast = p then some step else none
    | none => none

def replace (d : Document) (p : Path) (node : Node) : Document :=
  d.map fun e => if e.1 = p then (p, node) else e

def mayEnter (dotted : Bool) : Origin → Bool
  | .inline => false
  | .header => !dotted
  | .implied => true
  | .dotted => true

/-- Goes down from `p` by the keys, into the last of tables that share a header, and opens what is
not there. -/
def descend (dotted : Bool) : Document → Path → List String → Option (Document × Path)
  | d, p, [] => some (d, p)
  | d, p, k :: ks =>
    let q := p ++ [.key k]
    match d.node? q with
    | none => descend dotted (d ++ [(q, .table (if dotted then .dotted else .implied))]) q ks
    | some (.tables count) => descend dotted d (q ++ [.item (count - 1)]) ks
    | some (.table origin) => if mayEnter dotted origin then descend dotted d q ks else none
    | some _ => none

/-- Places a value in the table at `p`. Dotted keys add only to tables that they opened. -/
def assign (d : Document) (p : Path) (keys : KeyPath) (value : Document) : Option Document :=
  match descend true d p keys.parents with
  | none => none
  | some (d, q) =>
    if keys.parents ≠ [] ∧ d.node? q ≠ some (.table .dotted) then none
    else
      match d.node? (q ++ [.key keys.last]) with
      | some _ => none
      | none => some (d ++ value.under (q ++ [.key keys.last]))

def openTable (d : Document) (keys : KeyPath) : Option (Document × Path) :=
  match descend false d [] keys.parents with
  | none => none
  | some (d, p) =>
    let q := p ++ [.key keys.last]
    match d.node? q with
    | none => some (d ++ [(q, .table .header)], q)
    | some (.table .implied) => some (d.replace q (.table .header), q)
    | some _ => none

def appendTable (d : Document) (keys : KeyPath) : Option (Document × Path) :=
  match descend false d [] keys.parents with
  | none => none
  | some (d, p) =>
    let q := p ++ [.key keys.last]
    match d.node? q with
    | none => some (d ++ [(q, .tables 1), (q ++ [.item 0], .table .header)], q ++ [.item 0])
    | some (.tables count) =>
      some (d.replace q (.tables (count + 1)) ++ [(q ++ [.item count], .table .header)],
        q ++ [.item count])
    | some _ => none

end Document
end VirtualPad.Config
