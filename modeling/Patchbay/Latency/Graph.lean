import Patchbay.Fault

/-! Who feeds whom, by render position.

Positions are in render order, so a producer always stands before its
consumers. A link joins a producer to one of its consumers; links are numbered
producer after producer, and for one producer in the order of its consumers.
-/

set_option autoImplicit false

namespace Patchbay

/-- For each position the positions that feed it, in any order and with
repetitions, and the distinct positions that it feeds, in ascending order. -/
structure LatencyGraph where
  producers : Array (List Nat)
  consumers : Array (List Nat)
  deriving DecidableEq

namespace LatencyGraph

def ordered (producers : Array (List Nat)) : Bool :=
  producers.toList.zipIdx.all fun (sources, position) => sources.all (· < position)

/-- Enters a consumer under a producer, behind those that are there, and only once. -/
def enter (consumer : Nat) (table : Array (List Nat)) (producer : Nat) : Array (List Nat) :=
  table.modify producer fun known => if known.contains consumer then known else known ++ [consumer]

def enterUnder (table : Array (List Nat)) (sources : List Nat × Nat) : Array (List Nat) :=
  sources.1.foldl (enter sources.2) table

def entered (producers : Array (List Nat)) : Array (List Nat) :=
  producers.toList.zipIdx.foldl enterUnder (Array.replicate producers.size [])

def ofProducers (producers : Array (List Nat)) : Checked LatencyGraph :=
  if ordered producers then
    .ok { producers, consumers := entered producers }
  else .error .producerOrder

def size (graph : LatencyGraph) : Nat := graph.producers.size

def producersOf (graph : LatencyGraph) (position : Nat) : List Nat :=
  graph.producers[position]?.getD []

def consumersOf (graph : LatencyGraph) (position : Nat) : List Nat :=
  graph.consumers[position]?.getD []

def fansOut (graph : LatencyGraph) (position : Nat) : Bool :=
  1 < (graph.consumersOf position).length

def linkCount (graph : LatencyGraph) : Nat := Count.total (graph.consumers.toList.map List.length)

def linkBase (graph : LatencyGraph) (producer : Nat) : Nat :=
  Count.total ((graph.consumers.toList.take producer).map List.length)

def link (graph : LatencyGraph) (producer consumer : Nat) : Option Nat :=
  ((graph.consumersOf producer).idxOf? consumer).map (graph.linkBase producer + ·)

def links (graph : LatencyGraph) : List (Nat × Nat) :=
  (List.range graph.size).flatMap fun producer =>
    (graph.consumersOf producer).map (producer, ·)

end LatencyGraph

end Patchbay
