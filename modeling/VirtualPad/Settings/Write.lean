import VirtualPad.Settings.Basic

/-!
# Writing settings

One line for each field, `key = value`. Numbers are bare and everything else is quoted.
-/
namespace VirtualPad.Settings

def quoted (text : List Char) : List Char :=
  '\x22' :: text ++ ['\x22']

def value (s : Settings) : Field → List Char
  | .bindAddress => quoted s.bindAddress.text
  | .peerAddress => quoted s.peerAddress.text
  | .receiveMode => quoted s.receiveMode.name.toList
  | .pollInterval => Nat.toDigits 10 s.pollInterval
  | .keepaliveInterval => Nat.toDigits 10 s.keepaliveInterval
  | .discoveryTimeout => Nat.toDigits 10 s.discoveryTimeout
  | .shutdownTimeout => Nat.toDigits 10 s.shutdownTimeout
  | .queueCapacity => Nat.toDigits 10 s.queueCapacity

def line (s : Settings) (f : Field) : List Char :=
  f.key.toList ++ " = ".toList ++ s.value f ++ ['\n']

def lines (s : Settings) (fields : List Field) : List Char :=
  fields.flatMap s.line

def text (s : Settings) : String :=
  .ofList (s.lines Field.all)

end VirtualPad.Settings
