import VirtualPad.Device.Receive

/-!
# Shutting down

While the receive loop runs, stopping it takes several steps: see whether a controller is bound,
send a release notice if so, cancel the loop, and join it once it has ended. The loop takes
datagrams until it is cancelled, also between these steps. One more may be taken by a loop that has
looked just before the cancellation whether it is cancelled; this last datagram is left out.
-/
namespace VirtualPad

namespace Shutdown

inductive Stage where
  | running
  | checked (bound : Bool)
  | noticed
  | cancelled
  | ended
  | joined
  deriving DecidableEq

structure State where
  device : Device
  stage : Stage
  notices : Nat
  deriving DecidableEq

def start (d : Device) : State := ⟨d, .running, 0⟩

inductive Action where
  | deliver (bytes : List UInt8)
  | check
  | notify
  | cancel
  /-- The loop sees that it is cancelled. -/
  | finish
  | join
  deriving DecidableEq

def takesDatagrams : Stage → Bool
  | .running | .checked _ | .noticed => true
  | .cancelled | .ended | .joined => false

def step? (s : State) : Action → Option State
  | .deliver bytes =>
    if takesDatagrams s.stage then some { s with device := (s.device.receive bytes).device }
    else none
  | .check =>
    if s.stage = .running then some { s with stage := .checked s.device.isBound } else none
  | .notify =>
    match s.stage with
    | .checked true => some { s with stage := .noticed, notices := s.notices + 1 }
    | .checked false => some { s with stage := .noticed }
    | _ => none
  | .cancel => if s.stage = .noticed then some { s with stage := .cancelled } else none
  | .finish => if s.stage = .cancelled then some { s with stage := .ended } else none
  | .join => if s.stage = .ended then some { s with stage := .joined } else none

def run? (s : State) (actions : List Action) : Option State :=
  actions.foldlM step? s

def stopping : List Action := [.check, .notify, .cancel, .finish, .join]

def notices (d : Device) : Nat :=
  match run? (start d) stopping with
  | some s => s.notices
  | none => 0

theorem notices_eq (d : Device) : notices d = if d.isBound then 1 else 0 := by
  cases h : d.isBound <;>
    simp [notices, run?, stopping, start, step?, List.foldlM, h, bind, Option.bind, pure]

end Shutdown
end VirtualPad
