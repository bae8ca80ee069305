/-!
# Change events and their queue

An event tells that a control has a new value; at what time it got it is left out. The queue keeps
the newest events up to its capacity, and remembers that it lost one until it is asked.
-/
namespace VirtualPad

structure ChangeEvent where
  index : Nat
  offset : UInt32
  value : Int32
  /-- The same for all events of one read. -/
  sequence : UInt32
  deriving DecidableEq

structure EventQueue where
  capacity : Nat
  events : List ChangeEvent
  overflowed : Bool
  deriving DecidableEq

namespace EventQueue

/-- A queue holds at least one event. -/
def ofCapacity (capacity : Nat) : EventQueue :=
  ⟨max capacity 1, [], false⟩

/-- The room for all events is set aside at once, forty bytes an event, and less than `2 ^ 63` bytes
can be. -/
def fits (capacity : Nat) : Bool := decide (40 * max capacity 1 < 0x8000000000000000)

def size (q : EventQueue) : Nat := q.events.length

def isEmpty (q : EventQueue) : Bool := q.events.isEmpty

def push (q : EventQueue) (e : ChangeEvent) : EventQueue :=
  if q.capacity ≤ q.size then { q with events := q.events.drop 1 ++ [e], overflowed := true }
  else { q with events := q.events ++ [e] }

def pop (q : EventQueue) : Option ChangeEvent × EventQueue :=
  (q.events.head?, { q with events := q.events.drop 1 })

/-- Takes out everything, of which the first `count` events are delivered. -/
def drain (q : EventQueue) (count : Nat) : List ChangeEvent × EventQueue :=
  (q.events.take count, { q with events := [] })

def drainAll (q : EventQueue) : List ChangeEvent × EventQueue :=
  q.drain q.size

/-- Whether an event was lost since the last time this was asked. -/
def takeOverflow (q : EventQueue) : Bool × EventQueue :=
  (q.overflowed, { q with overflowed := false })

end EventQueue
end VirtualPad
