import VirtualPad.Session.Basic

/-!
# Runs

A run is a sequence of events of both sides, the receiver and the framework, in any order. Each
event has an outcome: what a read found, wrote and reported, and which handle was woken. Reads
write into a fresh list and report into another.
-/
namespace VirtualPad.Session

inductive Event where
  | dispatch (bytes : List UInt8)
  | receive (bytes : List UInt8) (size : Nat)
  /-- The receive loop fails, and with it the binding. -/
  | fail
  | enumerate (offers : List (List UInt8))
  /-- The last part of enumeration, which other events may come before. -/
  | pin
  | acquire (h : Handle)
  | unacquire
  | read
  | setDeadzone (index : Nat) (points : Int32)
  | setSaturation (index : Nat) (points : Int32)
  | release
  | takePermit (h : Handle)

structure Outcome where
  read? : Option ReadOutcome
  writes : List (Control × Int32)
  events : List ChangeEvent
  wake? : Option Handle
  deriving DecidableEq

namespace Outcome

def quiet : Outcome := ⟨none, [], [], none⟩

def ofWake (wake? : Option Handle) : Outcome := { quiet with wake? }

def ofRead (r : ReadResult (List (Control × Int32)) (List ChangeEvent)) : Outcome :=
  ⟨some r.outcome, r.buffer, r.queue, r.wake?⟩

end Outcome

def next (s : Session) : Event → Outcome × Session
  | .dispatch bytes => (.ofWake (s.device.receive bytes).wake?, s.dispatch bytes)
  | .receive bytes size =>
    (.ofWake (s.device.receive (bytes.take size)).wake?, s.receive bytes size)
  | .fail => (.quiet, s.withDevice s.device.unbind)
  | .enumerate offers => (.quiet, (s.enumerate offers).2)
  | .pin => (.quiet, s.pin.2)
  | .acquire h => (.quiet, (s.acquire h).2)
  | .unacquire => (.quiet, s.unacquire)
  | .read =>
    let (r, s) := s.read ([] : List (Control × Int32)) ([] : List ChangeEvent)
    (.ofRead r, s)
  | .setDeadzone index points => (.quiet, (s.setDeadzone index points).2)
  | .setSaturation index points => (.quiet, (s.setSaturation index points).2)
  | .release => (.quiet, s.release.2)
  | .takePermit h => (.quiet, (s.takePermit h).2)

def run : Session → List Event → List Outcome × Session
  | s, [] => ([], s)
  | s, e :: es =>
    let (outcome, s) := s.next e
    let (outcomes, s) := run s es
    (outcome :: outcomes, s)

def after (s : Session) (es : List Event) : Session := (s.run es).2

theorem after_nil (s : Session) : s.after [] = s := rfl

theorem after_cons (s : Session) (e : Event) (es : List Event) :
    s.after (e :: es) = (s.next e).2.after es := rfl

theorem after_append (s : Session) (es fs : List Event) :
    s.after (es ++ fs) = (s.after es).after fs := by
  induction es generalizing s with
  | nil => rfl
  | cons e es ih => exact ih _

end VirtualPad.Session
