import Patchbay.Plan.Monitor
import Patchbay.Delay.Port

/-! Compiled plans.

A plan is a fixed shape with moving contents. Signals live in lanes, each with
the delay line behind it. Every output port of a node has a lane, and so does
every edge that may need a delay of its own. Lanes are numbered in render
order: a node's edge lanes come first, its output lanes next, so whatever a
node reads lies below what it writes.
-/

set_option autoImplicit false

namespace Patchbay

structure Feed where
  /-- The lane that the producer writes. -/
  source : Nat
  /-- The lane that is read: the producer's, or the edge's own. -/
  lane : Nat
  gain : Sample
  deriving DecidableEq

/-- An edge with a lane of its own. -/
structure RouteLine where
  source : Nat
  lane : Nat
  type : PortType
  link : Nat
  /-- The longest delay that the lane can hold. -/
  capacity : Nat
  deriving DecidableEq

/-- The place of one node in a plan. -/
structure Station where
  id : NodeId
  name : String
  /-- For each input port its edges, in the order of their ids. -/
  inputs : List (List Feed)
  lines : List RouteLine
  /-- The first output lane. -/
  base : Nat
  outputs : List PortType
  /-- The longest delay that the output lanes can hold. -/
  delayCapacity : Nat
  deriving DecidableEq

namespace Station

def feeds (station : Station) : List Feed := station.inputs.flatten

def stop (station : Station) : Nat := station.base + station.outputs.length

end Station

structure Layout where
  /-- In render order. -/
  stations : List Station
  sinkLane : Nat
  sinkChannels : Nat
  blockSize : Nat
  eventCapacity : Nat
  /-- The samples of the largest audio input. -/
  maxInputSamples : Nat
  deriving DecidableEq

namespace Layout

def maxNodeRoutes (layout : Layout) : Nat :=
  (layout.stations.map (·.feeds.length)).foldl max 0

def maxNodeInputs (layout : Layout) : Nat :=
  (layout.stations.map (·.inputs.length)).foldl max 0

def mergedEvents (layout : Layout) : Checked Nat :=
  Count.mul layout.eventCapacity (max layout.maxNodeRoutes 1)

end Layout

/-- A signal and the delay line behind it. -/
structure Lane where
  buffer : SignalBuffer
  delay : PortDelay

def Lane.forPort (port : PortType) (capacity blockSize eventCapacity : Nat) : Checked Lane := do
  let buffer ← SignalBuffer.forPort port blockSize eventCapacity
  return ⟨buffer, ← PortDelay.forBuffer buffer capacity blockSize⟩

def Lane.clear (lane : Lane) : Lane := ⟨lane.buffer.clear, lane.delay.clear⟩

structure Route where
  sourceLane : Nat
  inputLane : Nat
  destNode : Nat
  destPort : Nat
  gain : Sample
  deriving DecidableEq

structure Plan (ν : Type) where
  layout : Layout
  /-- By render position. -/
  nodes : Array ν
  lanes : Array Lane
  monitor : Monitor

namespace Plan

variable {ν : Type}

def nodeCount (plan : Plan ν) : Nat := plan.nodes.size

def laneCount (plan : Plan ν) : Nat := plan.lanes.size

def routes (plan : Plan ν) : List Route :=
  plan.layout.stations.zipIdx.flatMap fun (station, destNode) =>
    station.inputs.zipIdx.flatMap fun (feeds, destPort) =>
      feeds.map fun feed =>
        { sourceLane := feed.source, inputLane := feed.lane, destNode, destPort, gain := feed.gain }

def lineCount (plan : Plan ν) : Nat := Count.total (plan.layout.stations.map (·.lines.length))

def output? (plan : Plan ν) (id : NodeId) (port : Nat) : Option SignalBuffer := do
  let station ← plan.layout.stations[← plan.monitor.position? id]?
  if port < station.outputs.length then
    return (← plan.lanes[station.base + port]?).buffer
  else none

/-- Resets every node and silences every lane. Failed nodes stay failed. -/
def reset [Node ν] (plan : Plan ν) : Plan ν :=
  { plan with nodes := plan.nodes.map Node.reset, lanes := plan.lanes.map Lane.clear }

def mapNodes (change : ν → ν) (plan : Plan ν) : Plan ν :=
  { plan with nodes := plan.nodes.map change }

def summary (plan : Plan ν) : String :=
  "CompiledPlan \x7b nodes: " ++ toString plan.nodeCount
    ++ ", buffers: " ++ toString plan.laneCount
    ++ ", routes: " ++ toString plan.routes.length
    ++ ", route_lines: " ++ toString plan.lineCount
    ++ ", block_size: " ++ toString plan.layout.blockSize
    ++ ", compensation_bound: " ++ toString plan.monitor.compensationBound ++ " \x7d"

end Plan

end Patchbay
