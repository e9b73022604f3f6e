import Patchbay.Patch.Order
import Patchbay.Plan.Basic
import Patchbay.Plan.Error
import Patchbay.Plan.Wiring

/-! Compiling a patch into a plan.

First the patch is checked and put in order. Then latencies decide which edges
may need a delay of their own and how long every line has to be: as long as
alignment can ask for while each node keeps to its declared maximum. An edge
gets a lane when its producer feeds several consumers, it carries something
that can be delayed, and its consumer can arrive late at all. A failed compile
leaves nothing behind.
-/

set_option autoImplicit false

namespace Patchbay

structure CompileOptions where
  blockSize : Nat
  eventCapacity : Nat := 256
  maxCompensation : Nat := 0x100000
  deriving DecidableEq

variable {ν : Type} [Node ν]

namespace Patch

def checkEdge (patch : Patch ν) (id : EdgeId) (edge : Edge) : Except CompileError Unit := do
  let some source := patch.node? edge.source | .error (.danglingNode id edge.source)
  let some dest := patch.node? edge.dest | .error (.danglingNode id edge.dest)
  let some output := (Node.outputs source)[edge.sourcePort]?
    | .error (.danglingPort id edge.source edge.sourcePort)
  let some input := (Node.inputs dest)[edge.destPort]?
    | .error (.danglingPort id edge.dest edge.destPort)
  match output.type, input.type with
  | .audio channels, .audio others =>
      if channels = others then .ok () else .error (.channelMismatch id channels others)
  | _, _ =>
      if output.kind = input.kind then .ok ()
      else .error (.kindMismatch id output.kind input.kind)

/-- Checks everything but latencies and sink, and answers the render order. -/
def check (patch : Patch ν) (options : CompileOptions) : Except CompileError (List Nat) := do
  if options.blockSize = 0 then .error .invalidBlockSize
  else if patch.isEmpty then .error .emptyPatch
  else
    patch.liveEdges.forM fun (id, edge) => patch.checkEdge id edge
    match patch.renderOrder with
    | .ok order => .ok order
    | .error stuck => .error (.cycle stuck)

end Patch

def Patch.place (patch : Patch ν) (order : List Nat) : List (Placed ν) :=
  order.filterMap fun slot => (patch.node? ⟨slot⟩).map (Placed.mk ⟨slot⟩)

def firstAudio (node : ν) : Option (Nat × Nat) :=
  (Node.outputs node).zipIdx.findSome? fun (port, index) =>
    match port.type with
    | .audio channels => some (index, max channels 1)
    | _ => none

/-- The position, output port and channel count that the plan answers with: those
of the chosen sink, or else of the last node that has an audio output. -/
def selectSink (sink : Option NodeId) (placed : List (Placed ν)) :
    Except CompileError (Nat × Nat × Nat) :=
  match sink with
  | some id =>
      match placed.zipIdx.find? fun (place, _) => place.id = id with
      | some (place, position) =>
          match firstAudio place.node with
          | some (port, channels) => .ok (position, port, channels)
          | none => .error (.invalidSink id)
      | none => .error (.invalidSink id)
  | none =>
      match placed.zipIdx.reverse.findSome? fun (place, position) =>
        (firstAudio place.node).map (position, ·) with
      | some sink => .ok sink
      | none => .error .noSink

/-- What alignment makes of a wired patch at its worst. -/
structure Survey where
  wires : List (List (List Wire))
  graph : LatencyGraph
  /-- The latencies at compile time, by position. -/
  intrinsic : Array Nat
  worst : Alignment

namespace Survey

def sourcesOf (wires : List Wire) : List Nat := (wires.map (·.source)).eraseDups

def ofPlaced (patch : Patch ν) (placed : List (Placed ν)) : Checked Survey := do
  let wires := wiring patch placed
  let graph ← LatencyGraph.ofProducers (wires.map (sourcesOf ·.flatten)).toArray
  let intrinsic := (placed.map fun place => Node.latency place.node).toArray
  let declared := (placed.map fun place =>
    max (Node.maxLatency place.node) (Node.latency place.node)).toArray
  return { wires, graph, intrinsic, worst := ← graph.align declared }

def wiresBetween (survey : Survey) (source dest : Nat) : List Wire :=
  (survey.wires[dest]?.getD []).flatten.filter (·.source = source)

/-- The longest delay that a lane of its own has to hold for an edge into a
position; zero if the edge needs none. -/
def lineCapacity (survey : Survey) (dest : Nat) (wire : Wire) : Nat :=
  if survey.graph.fansOut wire.source ∧ wire.type.kind ≠ .control then survey.worst.arrivalAt dest
  else 0

def line? (survey : Survey) (dest : Nat) (wire : Wire) : Option (Nat × Nat) := do
  let link ← survey.graph.link wire.source dest
  let capacity := survey.lineCapacity dest wire
  if 0 < capacity then return (link, capacity) else none

def linkCapacity (survey : Survey) : List Nat :=
  survey.graph.links.map fun (source, dest) =>
    ((survey.wiresBetween source dest).map (survey.lineCapacity dest)).foldl max 0

/-- The longest delay of a position's outputs: a node waits for its earliest
consumer only. -/
def delayCapacity (survey : Survey) (position : Nat) : Nat :=
  ((survey.graph.consumersOf position).map survey.worst.arrivalAt).min?.getD 0

def bound (survey : Survey) : Nat :=
  max (((List.range survey.graph.size).map survey.delayCapacity).foldl max 0)
    (survey.linkCapacity.foldl max 0)

def needed (survey : Survey) (alignment : Alignment) (source dest : Nat) : Nat :=
  match survey.graph.link source dest with
  | some link => alignment.values.getD source 0 + alignment.links.getD link 0
  | none => 0

/-- The positions with a control edge that would have to be delayed, at the worst
or at first. -/
def uncompensatedControl (survey : Survey) (initial : Alignment) : List Nat :=
  (List.range survey.graph.size).filter fun source =>
    (survey.graph.consumersOf source).any fun dest =>
      (survey.wiresBetween source dest).any (·.type.kind = .control) &&
        0 < max (survey.needed survey.worst source dest) (survey.needed initial source dest)

end Survey

namespace Layout

/-- Numbers the lanes of one port's edges from `next` on. `bases` holds the first
output lane of each earlier position. -/
def layFeeds (bases : Array Nat) (line? : Wire → Option (Nat × Nat)) :
    (next : Nat) → List Wire → List Feed × List RouteLine
  | _, [] => ([], [])
  | next, wire :: rest =>
      let source := bases.getD wire.source 0 + wire.sourcePort
      match line? wire with
      | none =>
          let (feeds, lines) := layFeeds bases line? next rest
          (⟨source, source, wire.gain⟩ :: feeds, lines)
      | some (link, capacity) =>
          let (feeds, lines) := layFeeds bases line? (next + 1) rest
          (⟨source, next, wire.gain⟩ :: feeds, ⟨source, next, wire.type, link, capacity⟩ :: lines)

def layPorts (bases : Array Nat) (line? : Wire → Option (Nat × Nat)) :
    (next : Nat) → List (List Wire) → List (List Feed) × List RouteLine
  | _, [] => ([], [])
  | next, wires :: rest =>
      let (feeds, lines) := layFeeds bases line? next wires
      let (ports, others) := layPorts bases line? (next + lines.length) rest
      (feeds :: ports, lines ++ others)

def layStations (survey : Survey) :
    (bases : Array Nat) → (next : Nat) → List (Placed ν) → List Station
  | _, _, [] => []
  | bases, next, place :: rest =>
      let position := bases.size
      let (inputs, lines) :=
        layPorts bases (survey.line? position) next (survey.wires[position]?.getD [])
      let station := {
        id := place.id
        name := Node.name place.node
        inputs
        lines
        base := next + lines.length
        outputs := (Node.outputs place.node).map (·.type)
        delayCapacity := survey.delayCapacity position }
      station :: layStations survey (bases.push station.base) station.stop rest

def largestInput (blockSize : Nat) (placed : List (Placed ν)) : Checked Nat :=
  (placed.flatMap fun place => Node.inputs place.node).foldlM (fun largest port =>
    match port.type with
    | .audio channels => do return max largest (← Count.mul blockSize (max channels 1))
    | _ => .ok largest) 0

def stationLanes (options : CompileOptions) (station : Station) : Checked (List Lane) := do
  let lines ← station.lines.mapM fun line =>
    Lane.forPort line.type line.capacity options.blockSize options.eventCapacity
  let outputs ← station.outputs.mapM fun port =>
    Lane.forPort port station.delayCapacity options.blockSize options.eventCapacity
  return lines ++ outputs

end Layout

def assemble (options : CompileOptions) (placed : List (Placed ν)) (survey : Survey)
    (sink : Nat × Nat × Nat) : Checked (Plan ν) := do
  let initial ← survey.graph.align survey.intrinsic
  let stations := Layout.layStations survey #[] 0 placed
  let lanes ← stations.mapM (Layout.stationLanes options)
  let (position, port, channels) := sink
  let ids := placed.map (·.id)
  let linkCapacity := survey.linkCapacity.toArray
  return {
    layout := {
      stations
      sinkLane := (stations[position]?.map (·.base)).getD 0 + port
      sinkChannels := channels
      blockSize := options.blockSize
      eventCapacity := options.eventCapacity
      maxInputSamples := ← Layout.largestInput options.blockSize placed }
    nodes := (placed.map (·.node)).toArray
    lanes := lanes.flatten.toArray
    monitor := {
      order := ids
      names := stations.map (·.name)
      failed := Array.replicate placed.length false
      latencies := {
        intrinsic := survey.intrinsic
        compensation := initial.values
        links := initial.links
        linkCapacity
        dirty := false }
      graph := survey.graph
      compensationBound := survey.bound
      uncompensatedControl :=
        (survey.uncompensatedControl initial).filterMap (ids[·]?)
      clamps := 0
      overflows := 0
      blocks := 0
      misaligned := countMisaligned initial.links linkCapacity } }

def compile (patch : Patch ν) (options : CompileOptions) :
    Checked (Except CompileError (Plan ν)) :=
  match patch.check options with
  | .error error => .ok (.error error)
  | .ok order => do
      let placed := patch.place order
      let survey ← Survey.ofPlaced patch placed
      match selectSink patch.sink placed with
      | .error error => return .error error
      | .ok sink =>
          if options.maxCompensation < survey.bound then
            return .error (.compensationTooLarge survey.bound options.maxCompensation)
          else return .ok (← assemble options placed survey sink)

end Patchbay
