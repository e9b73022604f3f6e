import Patchbay.Render.Scratch

/-! Rendering a plan, one block at a time.

For each node in render order: fill and delay the edge lanes into it, show it
its inputs, let it write its cleared outputs, delay those, and take note of its
latency. A skipped block is silent. A failed node is silent from then on and
never called again. The sink's block is the answer.
-/

set_option autoImplicit false

namespace Patchbay

variable {ν : Type}

structure Call (ν : Type) where
  position : Nat
  node : ν
  /-- What the node was shown. -/
  ports : Ports
  outcome : Outcome
  /-- The node and its ports as the call left them. -/
  next : ν
  reply : Ports

/-- What goes on from the outputs. Unless the call was done, all that the node left
there is cleared. -/
def Call.written (call : Call ν) : Array SignalBuffer :=
  match call.outcome with
  | .done => call.reply.outputs
  | _ => call.reply.outputs.map SignalBuffer.clear

def Call.fails (call : Call ν) : Bool :=
  match call.outcome with
  | .failed _ => true
  | _ => false

/-- A plan's moving parts in the middle of a block. -/
structure Progress (ν : Type) where
  nodes : Array ν
  lanes : Array Lane
  monitor : Monitor
  space : MergeSpace

namespace Progress

/-- Copies a producer's signal onto an edge lane and delays it by what the link
still lacks. -/
def fillLine (clock blockSize : Nat) (state : Progress ν) (line : RouteLine) :
    Checked (Progress ν) := do
  let wanted ← itemAt state.monitor.latencies.links line.link
  let (delay, monitor) := state.monitor.clampDelay wanted line.capacity
  let lane ← itemAt state.lanes line.lane
  if line.lane ≤ line.source then throw .outOfRange
  let source ← itemAt state.lanes line.source
  let (dropped, buffer) ← lane.buffer.copyFrom source.buffer
  let (spilled, buffer, queue) ← lane.delay.apply buffer delay clock blockSize
  return { state with
    lanes := state.lanes.setIfInBounds line.lane ⟨buffer, queue⟩
    monitor := monitor.countOverflow (dropped + spilled) }

/-- The signal of a feed; only lanes below `base` may be read. -/
def source (lanes : Array Lane) (base : Nat) (feed : Feed) : Checked Source := do
  if base ≤ feed.lane then throw .outOfRange
  return ⟨(← itemAt lanes feed.lane).buffer, feed.gain⟩

def blankOutputs (lanes : Array Lane) (station : Station) : Checked (Array SignalBuffer) :=
  if lanes.size < station.stop then .error .outOfRange
  else .ok ((lanes.extract station.base station.stop).map (·.buffer.clear))

def store (lanes : Array Lane) (base : Nat) (buffers : List SignalBuffer) : Array Lane :=
  buffers.zipIdx.foldl (fun lanes (buffer, index) =>
    lanes.modify (base + index) fun lane => { lane with buffer }) lanes

def delayLanes (delay clock blockSize : Nat) (lane : Nat) :
    (count : Nat) → Progress ν → Checked (Progress ν)
  | 0, state => .ok state
  | count + 1, state => do
      let ⟨buffer, line⟩ ← itemAt state.lanes lane
      let (dropped, buffer, line) ← line.apply buffer delay clock blockSize
      delayLanes delay clock blockSize (lane + 1) count { state with
        lanes := state.lanes.setIfInBounds lane ⟨buffer, line⟩
        monitor := state.monitor.countOverflow dropped }

def arrange (clock blockSize position : Nat) (station : Station) (state : Progress ν) :
    Checked (ν × Ports × Progress ν) := do
  let state ← station.lines.foldlM (fillLine clock blockSize) state
  let sources ← station.inputs.mapM (·.mapM (source state.lanes station.base))
  let blank ← blankOutputs state.lanes station
  let node ← itemAt state.nodes position
  return (node,
    { inputs := { ports := sources, space := state.space, dropped := 0 }, outputs := blank }, state)

def collect (station : Station) (call : Call ν) (state : Progress ν) : Progress ν :=
  { state with
    nodes := state.nodes.setIfInBounds call.position call.next
    lanes := store state.lanes station.base call.written.toList
    monitor := state.monitor.countOverflow call.reply.inputs.dropped
    space := call.reply.inputs.space }

variable [Node ν]

def finish (clock blockSize position : Nat) (station : Station) (node : ν)
    (state : Progress ν) : Checked (Progress ν) := do
  let wanted ← itemAt state.monitor.latencies.compensation position
  let (delay, monitor) := state.monitor.clampDelay wanted station.delayCapacity
  let state ← delayLanes delay clock blockSize station.base station.outputs.length
    { state with monitor }
  let (_, latencies) ← state.monitor.latencies.report position (Node.latency node)
  return { state with monitor := { state.monitor with latencies } }

def runStation (context : Context) (clock blockSize position : Nat) (station : Station)
    (state : Progress ν) : Checked (Call ν × Progress ν) := do
  let (node, ports, state) ← state.arrange clock blockSize position station
  let (outcome, next, reply) ← Node.process context node ports
  let call := { position, node, ports, outcome, next, reply }
  let state := state.collect station call
  if call.fails then
    return (call, { state with monitor := state.monitor.markFailed position })
  else return (call, ← state.finish clock blockSize position station next)

def runFrom (context : Context) (clock blockSize : Nat) :
    (position : Nat) → List Station → Progress ν → Checked (List (Call ν) × Progress ν)
  | _, [], state => .ok ([], state)
  | position, station :: rest, state =>
      if state.monitor.isFailedAt position then
        runFrom context clock blockSize (position + 1) rest state
      else do
        let (call, state) ← runStation context clock blockSize position station state
        let (calls, state) ← runFrom context clock blockSize (position + 1) rest state
        return (call :: calls, state)

end Progress

/-- A renderer. It keeps space between blocks and nothing else. -/
structure Engine where
  scratch : Scratch
  deriving DecidableEq

namespace Engine

def new : Engine := ⟨.none⟩

def forLayout (layout : Layout) : Checked Engine := do return ⟨← Scratch.forLayout layout⟩

def prepare (engine : Engine) (layout : Layout) : Checked Engine := do
  if ← engine.scratch.fits layout then return engine else forLayout layout

def adopt (engine : Engine) (scratch : Scratch) : Scratch × Engine := (engine.scratch, ⟨scratch⟩)

def output (engine : Engine) : AudioBuffer := engine.scratch.output

/-- Renders one block of a plan and moves the context on. Answers the calls that
were made, in their order. -/
def render [Node ν] (engine : Engine) (plan : Plan ν) (context : Context) :
    Checked (List (Call ν) × Engine × Plan ν × Context) := do
  let ⟨scratch⟩ ← engine.prepare plan.layout
  let clock ← context.clock
  let blockSize := plan.layout.blockSize
  let (calls, state) ← Progress.runFrom context clock blockSize 0 plan.layout.stations
    ⟨plan.nodes, plan.lanes, plan.monitor, scratch.space⟩
  let sink ← itemAt state.lanes plan.layout.sinkLane
  let output ←
    match sink.buffer.audio? with
    | some block => scratch.output.copyFrom block.samples
    | none => pure scratch.output
  return (calls, ⟨{ scratch with space := state.space, output }⟩,
    { plan with nodes := state.nodes, lanes := state.lanes, monitor := state.monitor.countBlock },
    ← context.advance)

def process [Node ν] (engine : Engine) (plan : Plan ν) (context : Context) :
    Checked (Engine × Plan ν × Context) := do
  let (_, rendered) ← engine.render plan context
  return rendered

end Engine

end Patchbay
