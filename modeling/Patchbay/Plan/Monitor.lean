import Patchbay.Patch.Basic
import Patchbay.Latency.Published

/-! What can be seen of a plan while it renders: its order, the latencies, the
nodes that failed, and counters. -/

set_option autoImplicit false

namespace Patchbay

structure NodeReport where
  id : NodeId
  name : String
  failed : Bool
  intrinsicLatency : Nat
  compensation : Nat
  deriving DecidableEq

/-- Lists are by render position. -/
structure Monitor where
  order : List NodeId
  names : List String
  failed : Array Bool
  latencies : Latencies
  graph : LatencyGraph
  /-- No delay exceeds this while nodes keep to their declared latencies. -/
  compensationBound : Nat
  /-- Nodes with a control output that would have to be delayed. -/
  uncompensatedControl : List NodeId
  /-- Delays that were longer than their line. -/
  clamps : Nat
  /-- Events lost for want of room. -/
  overflows : Nat
  blocks : Nat
  /-- Links whose remaining delay does not fit their line. -/
  misaligned : Nat
  deriving DecidableEq

namespace Monitor

def position? (monitor : Monitor) (id : NodeId) : Option Nat := monitor.order.idxOf? id

def name? (monitor : Monitor) (id : NodeId) : Option String := do
  monitor.names[← monitor.position? id]?

def isFailedAt (monitor : Monitor) (position : Nat) : Bool := monitor.failed.getD position false

def isFailed (monitor : Monitor) (id : NodeId) : Bool :=
  (monitor.position? id).any monitor.isFailedAt

def failedNodes (monitor : Monitor) : List NodeId :=
  (monitor.order.zipIdx.filter fun (_, position) => monitor.isFailedAt position).map Prod.fst

def intrinsicLatency? (monitor : Monitor) (id : NodeId) : Option Nat := do
  monitor.latencies.intrinsic[← monitor.position? id]?

def compensation? (monitor : Monitor) (id : NodeId) : Option Nat := do
  monitor.latencies.compensation[← monitor.position? id]?

/-- The remaining delay between two nodes, if one feeds the other. -/
def routeCompensation? (monitor : Monitor) (source dest : NodeId) : Option Nat := do
  let link ← monitor.graph.link (← monitor.position? source) (← monitor.position? dest)
  monitor.latencies.links[link]?

def snapshot (monitor : Monitor) : List NodeReport :=
  (monitor.order.zip monitor.names).zipIdx.map fun ((id, name), position) => {
    id
    name
    failed := monitor.isFailedAt position
    intrinsicLatency := monitor.latencies.intrinsic.getD position 0
    compensation := monitor.latencies.compensation.getD position 0 }

def markFailed (monitor : Monitor) (position : Nat) : Monitor :=
  { monitor with failed := monitor.failed.setIfInBounds position true }

def countOverflow (monitor : Monitor) (events : Nat) : Monitor :=
  { monitor with overflows := monitor.overflows + events }

def countBlock (monitor : Monitor) : Monitor := { monitor with blocks := monitor.blocks + 1 }

/-- Limits a delay to what its line can hold, and counts each time it has to. -/
def clampDelay (monitor : Monitor) (wanted capacity : Nat) : Nat × Monitor :=
  if capacity < wanted then (capacity, { monitor with clamps := monitor.clamps + 1 })
  else (wanted, monitor)

def refresh (monitor : Monitor) : Checked (RefreshReport × Monitor) := do
  let (report, latencies) ← monitor.latencies.refresh monitor.graph
  return (report, { monitor with latencies, misaligned := report.misaligned })

def refreshIfDirty (monitor : Monitor) : Checked (Option RefreshReport × Monitor) := do
  if monitor.latencies.dirty then
    let (report, monitor) ←
      { monitor with latencies := { monitor.latencies with dirty := false } : Monitor }.refresh
    return (some report, monitor)
  else return (none, monitor)

end Monitor

end Patchbay
