import VirtualPad.Config.Statement
import VirtualPad.Settings.Basic
import VirtualPad.Text.Utf8

/-!
# Loading settings

Each field is looked up under its key at the top of a document. A field without a node keeps its
standard value, and keys of no field are passed over.
-/
namespace VirtualPad.Settings

open Config (Document Node Path Step)

def address? : Node → Option SocketAddress
  | .text value => SocketAddress.ofText? value.toList
  | _ => none

def natural? : Node → Option Nat
  | .integer i => if 0 ≤ i then some i.toNat else none
  | _ => none

/-- A mode is named by text, or by the one key of a table with nothing under the key. -/
def mode? (d : Document) (p : Path) : Node → Option ReceiveMode
  | .text name => ReceiveMode.ofName? name
  | .table _ =>
    match d.children p with
    | [.key name] =>
      match d.node? (p ++ [.key name]), d.children (p ++ [.key name]) with
      | some (.table _), [] => ReceiveMode.ofName? name
      | some .array, [] => ReceiveMode.ofName? name
      | _, _ => none
    | _ => none
  | _ => none

def set? (s : Settings) (d : Document) (node : Node) : Field → Option Settings
  | .bindAddress => (address? node).map fun a => { s with bindAddress := a }
  | .peerAddress => (address? node).map fun a => { s with peerAddress := a }
  | .receiveMode =>
    (mode? d [.key Field.receiveMode.key] node).map fun m => { s with receiveMode := m }
  | .pollInterval => (natural? node).map fun n => { s with pollInterval := n }
  | .keepaliveInterval => (natural? node).map fun n => { s with keepaliveInterval := n }
  | .discoveryTimeout => (natural? node).map fun n => { s with discoveryTimeout := n }
  | .shutdownTimeout => (natural? node).map fun n => { s with shutdownTimeout := n }
  | .queueCapacity => (natural? node).map fun n => { s with queueCapacity := n }

def setFrom? (d : Document) (s : Settings) (f : Field) : Option Settings :=
  match d.node? [.key f.key] with
  | none => some s
  | some node => s.set? d node f

def ofDocument? (d : Document) : Option Settings :=
  Field.all.foldlM (setFrom? d) standard

def ofText? (text : String) : Option Settings :=
  match Document.ofText? text with
  | none => none
  | some d => ofDocument? d

inductive LoadError where
  | unreadable
  | malformed
  deriving DecidableEq

def LoadError.message : LoadError → String
  | .unreadable => "Failed to read config file"
  | .malformed => "Failed to parse config file"

/-- The settings of a configuration file; without a file the standard ones. -/
def load : Option (List UInt8) → Except LoadError Settings
  | none => .ok standard
  | some bytes =>
    match Utf8.decode? bytes with
    | none => .error .unreadable
    | some text =>
      match ofText? text with
      | none => .error .malformed
      | some s => .ok s

end VirtualPad.Settings
