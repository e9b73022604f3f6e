import Patchbay.Fault

/-! Events stamped with a frame, and lists of them that never outgrow their
capacity.

Ordering by frame is stable: events of one frame keep the order in which they
were given, which is what decides ties when several sources are merged.
-/

set_option autoImplicit false

namespace Patchbay

structure Event (Body : Type) where
  frame : UInt32
  body : Body
  deriving DecidableEq, Repr

variable {Body : Type}

namespace Event

def atFrame (event : Event Body) (frame : UInt32) : Event Body := { event with frame }

/-- Places an event behind every event that is not later than it. -/
def insertByFrame (event : Event Body) : List (Event Body) → List (Event Body)
  | [] => [event]
  | first :: rest =>
      if event.frame < first.frame then event :: first :: rest
      else first :: insertByFrame event rest

def sortByFrame (events : List (Event Body)) : List (Event Body) :=
  events.foldl (fun sorted event => event.insertByFrame sorted) []

def sortedByFrame : List (Event Body) → Bool
  | first :: second :: rest => first.frame ≤ second.frame && sortedByFrame (second :: rest)
  | _ => true

end Event

/-- Events of one block, at most `capacity` of them. -/
structure EventList (Body : Type) where
  events : List (Event Body)
  capacity : Nat
  deriving DecidableEq

namespace EventList

def empty (capacity : Nat) : EventList Body := ⟨[], capacity⟩

def reserved (capacity : Nat) : Checked (EventList Body) := do
  Count.reserve capacity 8
  return .empty capacity

def push (list : EventList Body) (event : Event Body) : Bool × EventList Body :=
  if list.events.length < list.capacity then
    (true, { list with events := list.events ++ [event] })
  else (false, list)

def append (list : EventList Body) (events : List (Event Body)) : Nat × EventList Body :=
  let kept := events.take (list.capacity - list.events.length)
  (events.length - kept.length, { list with events := list.events ++ kept })

def clear (list : EventList Body) : EventList Body := { list with events := [] }

def sort (list : EventList Body) : EventList Body :=
  { list with events := Event.sortByFrame list.events }

def isSorted (list : EventList Body) : Bool := Event.sortedByFrame list.events

end EventList

inductive MidiMessage where
  | noteOn (channel note velocity : UInt8)
  | noteOff (channel note velocity : UInt8)
  | controlChange (channel controller value : UInt8)
  | programChange (channel program : UInt8)
  /-- The amount is zero at the centre. -/
  | pitchBend (channel : UInt8) (amount : Int16)
  | start
  | stop
  | resume
  | clock
  deriving DecidableEq

abbrev MidiEvent := Event MidiMessage

abbrev Trigger := Event UInt32

end Patchbay
