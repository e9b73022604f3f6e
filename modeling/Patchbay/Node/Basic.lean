import Patchbay.Context
import Patchbay.Node.Inputs

/-! Nodes: what a patch is made of.

A node is a value of some type that says how it processes. The renderer decides
when it runs and what it sees; a node changes its outputs and its own state and
nothing else.
-/

set_option autoImplicit false

namespace Patchbay

/-- How one call ended. The outputs of a skipped block are silent; a failed node
is silent for good. -/
inductive Outcome where
  | done
  | skipped (reason : String)
  | failed (reason : String)
  deriving DecidableEq

def Outcome.message : Outcome → String
  | .done => "done"
  | .skipped reason => "skipped: " ++ reason
  | .failed reason => "failed: " ++ reason

/-- What a node sees and writes in one block. -/
structure Ports where
  inputs : Inputs
  outputs : Array SignalBuffer
  deriving DecidableEq

namespace Ports

def audioOut? (ports : Ports) (port : Nat) : Option AudioBuffer := do
  (← ports.outputs[port]?).audio?

def midiOut? (ports : Ports) (port : Nat) : Option (EventList MidiMessage) := do
  (← ports.outputs[port]?).midi?

def controlOut? (ports : Ports) (port : Nat) : Option Ramp := do
  (← ports.outputs[port]?).control?

def triggerOut? (ports : Ports) (port : Nat) : Option (EventList UInt32) := do
  (← ports.outputs[port]?).trigger?

def put (ports : Ports) (port : Nat) (buffer : SignalBuffer) : Ports :=
  { ports with outputs := ports.outputs.setIfInBounds port buffer }

def putSamples (ports : Ports) (port : Nat) (block : AudioBuffer) (samples : Array Sample) :
    Ports :=
  ports.put port (.audio { block with samples })

def setControl (ports : Ports) (port : Nat) (ramp : Ramp) : Bool × Ports :=
  match ports.controlOut? port with
  | some _ => (true, ports.put port (.control ramp))
  | none => (false, ports)

end Ports

/-- What the renderer and the compiler ask of a node. -/
class Node (ν : Type) where
  name : ν → String
  inputs : ν → List PortSpec
  outputs : ν → List PortSpec
  /-- The present processing latency in samples. -/
  latency : ν → Nat := fun _ => 0
  /-- The largest latency the node will ever report. -/
  maxLatency : ν → Nat := latency
  process : Context → ν → Ports → Checked (Outcome × ν × Ports)
  reset : ν → ν := id

instance {α β : Type} [Node α] [Node β] : Node (α ⊕ β) where
  name := Sum.elim Node.name Node.name
  inputs := Sum.elim Node.inputs Node.inputs
  outputs := Sum.elim Node.outputs Node.outputs
  latency := Sum.elim Node.latency Node.latency
  maxLatency := Sum.elim Node.maxLatency Node.maxLatency
  process context node ports := do
    match node with
    | .inl node =>
        let (outcome, node, ports) ← Node.process context node ports
        return (outcome, .inl node, ports)
    | .inr node =>
        let (outcome, node, ports) ← Node.process context node ports
        return (outcome, .inr node, ports)
  reset := Sum.map Node.reset Node.reset

end Patchbay
