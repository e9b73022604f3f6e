import Patchbay.Signal.Event

/-! The event queue: a delay for events.

An event taken at an absolute time becomes due after the delay of the block
that took it, and comes out in the block that holds its due time, stamped
relative to that block's clock.
-/

set_option autoImplicit false

namespace Patchbay

structure Due (Body : Type) where
  time : Nat
  event : Event Body
  deriving DecidableEq

/-- Events in flight, in the order in which they were taken. -/
structure EventQueue (Body : Type) where
  pending : List (Due Body)
  capacity : Nat
  deriving DecidableEq

namespace EventQueue

variable {Body : Type}

def empty (capacity : Nat) : EventQueue Body := ⟨[], capacity⟩

/-- An empty queue with its storage reserved. An event in flight takes sixteen
bytes. -/
def reserved (capacity : Nat) : Checked (EventQueue Body) := do
  Count.reserve capacity 16
  return .empty capacity

def take (queue : EventQueue Body) (event : Event Body) (delay clock : Nat) :
    Checked (Nat × EventQueue Body) :=
  if queue.pending.length < queue.capacity then do
    let time ← Count.add (← Count.add clock event.frame.toNat) delay
    return (0, { queue with pending := queue.pending ++ [⟨time, event⟩] })
  else .ok (1, queue)

def takeAll (queue : EventQueue Body) (delay clock : Nat) :
    List (Event Body) → Checked (Nat × EventQueue Body)
  | [] => .ok (0, queue)
  | event :: rest => do
      let (dropped, queue) ← queue.take event delay clock
      let (others, queue) ← takeAll queue delay clock rest
      return (dropped + others, queue)

def stamp (clock : Nat) (due : Due Body) : Event Body :=
  due.event.atFrame (UInt32.ofNat (due.time - clock))

def pushAll (list : EventList Body) : List (Event Body) → Nat × EventList Body
  | [] => (0, list)
  | event :: rest =>
      let (pushed, list) := list.push event
      let (others, list) := pushAll list rest
      ((if pushed then 0 else 1) + others, list)

/-- Exchanges a block's events for those that are due before the block ends, and
counts the events that found no room. Nothing happens at delay zero with
nothing in flight. -/
def process (queue : EventQueue Body) (list : EventList Body) (delay clock blockSize : Nat) :
    Checked (Nat × EventList Body × EventQueue Body) :=
  if delay = 0 ∧ queue.pending = [] then .ok (0, list, queue)
  else do
    let (refused, queue) ← queue.takeAll delay clock list.events
    let stop ← Count.add clock blockSize
    let due := queue.pending.filter (·.time < stop)
    let (spilled, list) := pushAll list.clear (due.map (stamp clock))
    return (refused + spilled, list.sort,
      { queue with pending := queue.pending.filter (stop ≤ ·.time) })

def clear (queue : EventQueue Body) : EventQueue Body := { queue with pending := [] }

/-- Enough places for `perBlock` events per block under any delay up to
`capacity`: one block's events for each block a delay can span, and one more
for the block being taken in. -/
def places (perBlock capacity blockSize : Nat) : Checked Nat :=
  if capacity = 0 then .ok 0
  else do
    let blockSize := max blockSize 1
    Count.mul perBlock (← Count.add ((capacity + blockSize - 1) / blockSize) 1)

end EventQueue

end Patchbay
