import VirtualPad.Address.Socket

/-!
# Transport errors
-/
namespace VirtualPad

inductive TransportError where
  | bind (address : SocketAddress) (cause : String)
  | socket (cause : String)
  | notOpen
  | send (what : String) (peer : SocketAddress) (cause : String)
  | thread (cause : String)
  deriving DecidableEq

def TransportError.releaseNotice : String := "release notice"

def TransportError.message : TransportError → String
  | .bind address cause => "Failed to bind " ++ .ofList address.text ++ ": " ++ cause
  | .socket cause => "Socket error: " ++ cause
  | .notOpen => "Socket is not open"
  | .send what peer cause =>
    "Failed to send " ++ what ++ " to " ++ .ofList peer.text ++ ": " ++ cause
  | .thread cause => "Failed to spawn receive thread: " ++ cause

end VirtualPad
