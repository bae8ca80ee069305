import VirtualPad.Bytes.Hex
import VirtualPad.Monitor
import VirtualPad.Settings.Load
import VirtualPad.Settings.Write
import VirtualPad.SimulatedHost
import VirtualPad.Text.Blank

/-!
# Command line

Loads the settings, then monitors the datagrams that come in, one line of hexadecimal digits each,
on standard input. With `--simulate` the simulated capture host plays one sweep instead.
-/
namespace VirtualPad.CommandLine

def configFile : IO String := do
  let home ← IO.getEnv "HOME"
  let config ← IO.getEnv "XDG_CONFIG_HOME"
  let directory := config.getD ((home.map (· ++ "/.config")).getD ".")
  return directory ++ "/virtual-pad/bridge.toml"

/-- A file that does not exist is no failure. -/
def readFile? (path : String) : IO (Option (List UInt8)) := do
  match ← (IO.FS.readBinFile path).toBaseIO with
  | .ok bytes => return some bytes.toList
  | .error (.noFileOrDirectory ..) => return none
  | .error e => throw e

def report (lines : List String) : IO Unit :=
  lines.forM IO.println

def hearAll (m : Monitor) : List (List UInt8) → IO Monitor
  | [] => return m
  | bytes :: rest => do
    let (lines, m) := m.hear bytes
    report lines
    hearAll m rest

/-- A line that is no hexadecimal text counts as an empty datagram. -/
partial def hearLines (input : IO.FS.Stream) (m : Monitor) : IO Monitor := do
  let line ← input.getLine
  if line.isEmpty then return m
  let (lines, m) := m.hear ((Hex.decode? (Text.trim line.toList)).getD [])
  report lines
  hearLines input m

def simulation : List (List UInt8) :=
  SimulatedHost.exchange (DiscoveryRequest.encode 0) 64

def monitor (settings : Settings) (simulate : Bool) : IO Unit := do
  IO.println ("Bridge on " ++ .ofList settings.bindAddress.text ++ ", capture host at " ++
    .ofList settings.peerAddress.text)
  let start := Monitor.start { Network.standard with peer := settings.peerAddress }
    settings.queueCapacity
  let m ← if simulate then hearAll start simulation else hearLines (← IO.getStdin) start
  let (_, _) := m.session.unacquire.release
  IO.println "Bridge released"

def run (args : List String) : IO UInt32 := do
  match Settings.load (← readFile? (← configFile)) with
  | .error e =>
    IO.eprintln ("Error: " ++ e.message)
    return 1
  | .ok settings =>
    monitor settings (args.contains "--simulate")
    return 0

end VirtualPad.CommandLine

def main (args : List String) : IO UInt32 :=
  VirtualPad.CommandLine.run args
