import Patchbay.Latency.Graph

/-! Alignment: how long each signal has to wait so that all paths into a node
arrive together.

The arrival at a node is the latest that any of its producers can deliver.
A producer waits for the earliest of its consumers; what a later consumer still
lacks is left to the link between the two.
-/

set_option autoImplicit false

namespace Patchbay

structure Alignment where
  /-- The delay of each node's outputs, by position. -/
  values : Array Nat
  /-- The remaining delay of each link, by its number. -/
  links : Array Nat
  /-- The accumulated latency at each node's inputs, by position. -/
  arrival : Array Nat
  deriving DecidableEq

namespace Alignment

def maxArrival (alignment : Alignment) : Nat := alignment.arrival.foldl max 0

def maxValue (alignment : Alignment) : Nat :=
  alignment.links.foldl max (alignment.values.foldl max 0)

def arrivalAt (alignment : Alignment) (position : Nat) : Nat :=
  alignment.arrival.getD position 0

end Alignment

namespace LatencyGraph

def latestDelivery (arrival intrinsic : Array Nat) : List Nat → Checked Nat
  | [] => .ok 0
  | source :: rest => do
      let delivery ← Count.add (← itemAt arrival source) (← itemAt intrinsic source)
      return max delivery (← latestDelivery arrival intrinsic rest)

def arrivals (graph : LatencyGraph) (intrinsic : Array Nat) : Checked (Array Nat) :=
  graph.producers.foldlM (fun arrival sources => do
    return arrival.push (← latestDelivery arrival intrinsic sources)) #[]

/-- What one producer waits, and what is left to each of its links. -/
def waits (graph : LatencyGraph) (arrival intrinsic : Array Nat) (source : Nat) :
    Checked (Nat × List Nat) :=
  let deadlines := (graph.consumersOf source).map fun position => arrival.getD position 0
  match deadlines.min? with
  | none => .ok (0, [])
  | some earliest => do
      let delivery ← Count.add (arrival.getD source 0) (← itemAt intrinsic source)
      let wait ← Count.sub earliest delivery
      let rest ← deadlines.mapM (Count.sub · earliest)
      return (wait, rest)

def align (graph : LatencyGraph) (intrinsic : Array Nat) : Checked Alignment := do
  let arrival ← graph.arrivals intrinsic
  let waits ← (List.range graph.size).mapM (graph.waits arrival intrinsic)
  return {
    values := (waits.map Prod.fst).toArray
    links := (waits.flatMap Prod.snd).toArray
    arrival }

/-- A bound on every delay that alignment can ask for while no node exceeds the
given latencies. -/
def worstCaseBound (graph : LatencyGraph) (maxLatency : Array Nat) : Checked Nat := do
  return (← graph.align maxLatency).maxArrival

end LatencyGraph

end Patchbay
