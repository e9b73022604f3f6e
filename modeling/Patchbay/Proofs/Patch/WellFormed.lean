import Patchbay.Plan.Compile
import Patchbay.Proofs.Patch.Paths

/-! Which patches have a plan, and what the refusals say about a patch.

Both are said of the patch and the options alone. Latencies are the declared
maxima; a node that reports more than it declares counts with what it reports.
-/

set_option autoImplicit false

namespace Patchbay

variable {ν : Type} [Node ν]

def HasAudioOutput (node : ν) : Prop :=
  ∃ port ∈ Node.outputs node, port.kind = .audio

namespace Patch

variable (patch : Patch ν)

/-- The largest latency that a node may come to have. -/
def declared (id : NodeId) : Nat :=
  (patch.node? id).elim 0 fun node => max (Node.maxLatency node) (Node.latency node)

def latency (id : NodeId) : Nat := (patch.node? id).elim 0 Node.latency

def OutputAt (id : NodeId) (index : Nat) (port : PortSpec) : Prop :=
  ∃ node, patch.node? id = some node ∧ (Node.outputs node)[index]? = some port

variable {patch} in
theorem OutputAt.unique {id : NodeId} {index : Nat} {port other : PortSpec} (here : patch.OutputAt id index port)
    (there : patch.OutputAt id index other) : port = other := by
  obtain ⟨node, present, atPort⟩ := here
  obtain ⟨_, present', atPort'⟩ := there
  rw [present] at present'
  cases present'
  exact Option.some.inj (atPort.symm.trans atPort')

def InputAt (id : NodeId) (index : Nat) (port : PortSpec) : Prop :=
  ∃ node, patch.node? id = some node ∧ (Node.inputs node)[index]? = some port

variable {patch} in
theorem InputAt.unique {id : NodeId} {index : Nat} {port other : PortSpec} (here : patch.InputAt id index port)
    (there : patch.InputAt id index other) : port = other := by
  obtain ⟨node, present, atPort⟩ := here
  obtain ⟨_, present', atPort'⟩ := there
  rw [present] at present'
  cases present'
  exact Option.some.inj (atPort.symm.trans atPort')

def Fits (edge : Edge) : Prop :=
  ∃ output input, patch.OutputAt edge.source edge.sourcePort output ∧
    patch.InputAt edge.dest edge.destPort input ∧ output.kind = input.kind ∧
    (output.kind = .audio → output.type.channels = input.type.channels)

def HasSink : Prop :=
  match patch.sink with
  | some id => ∃ node, patch.node? id = some node ∧ HasAudioOutput node
  | none => ∃ id node, patch.node? id = some node ∧ HasAudioOutput node

def EarliestArrival (id : NodeId) (arrival : Nat) : Prop :=
  IsLeast {late | ∃ consumer, patch.Feeds id consumer ∧ patch.IsArrival patch.declared consumer late}
    arrival

def FansOut (id : NodeId) : Prop :=
  ∃ first second, first ≠ second ∧ patch.Feeds id first ∧ patch.Feeds id second

/-- An edge that can be delayed, out of a node that fans out, and the arrival at
its consumer. -/
def Branches (edge : Edge) (type : PortType) (arrival : Nat) : Prop :=
  (∃ id, patch.edge? id = some edge) ∧
    (∃ port, patch.OutputAt edge.source edge.sourcePort port ∧ port.type = type) ∧
    patch.FansOut edge.source ∧ type.kind ≠ .control ∧ patch.IsArrival patch.declared edge.dest arrival

/-- A delay that a plan of the patch has to be able to hold. -/
def Demands (delay : Nat) : Prop :=
  (∃ id, patch.EarliestArrival id delay) ∨ ∃ edge type, patch.Branches edge type delay

structure WellFormed (options : CompileOptions) : Prop where
  blockSize : 0 < options.blockSize
  inhabited : ∃ id node, patch.node? id = some node
  edges : ∀ id edge, patch.edge? id = some edge → patch.Fits edge
  acyclic : patch.Acyclic
  sink : patch.HasSink
  delays : ∀ delay, patch.Demands delay → delay ≤ options.maxCompensation

/-- What a refusal says of the patch is so. -/
def Defect (options : CompileOptions) : CompileError → Prop
  | .emptyPatch => ∀ id, patch.node? id = none
  | .invalidBlockSize => options.blockSize = 0
  | .danglingNode id node => ∃ edge, patch.edge? id = some edge ∧
      (node = edge.source ∨ node = edge.dest) ∧ patch.node? node = none
  | .danglingPort id node port => ∃ edge, patch.edge? id = some edge ∧
      ((node = edge.source ∧ port = edge.sourcePort ∧ ∀ spec, ¬ patch.OutputAt node port spec) ∨
        (node = edge.dest ∧ port = edge.destPort ∧ ∀ spec, ¬ patch.InputAt node port spec)) ∧
      ∃ present, patch.node? node = some present
  | .kindMismatch id source dest => ∃ edge output input, patch.edge? id = some edge ∧
      patch.OutputAt edge.source edge.sourcePort output ∧
      patch.InputAt edge.dest edge.destPort input ∧
      output.kind = source ∧ input.kind = dest ∧ source ≠ dest
  | .channelMismatch id source dest => ∃ edge output input, patch.edge? id = some edge ∧
      patch.OutputAt edge.source edge.sourcePort output ∧
      patch.InputAt edge.dest edge.destPort input ∧
      output.type = .audio source ∧ input.type = .audio dest ∧ source ≠ dest
  | .cycle node => patch.OnOrBehindCycle node
  | .noSink => patch.sink = none ∧
      ∀ id node, patch.node? id = some node → ¬ HasAudioOutput node
  | .invalidSink id => patch.sink = some id ∧
      ∀ node, patch.node? id = some node → ¬ HasAudioOutput node
  | .compensationTooLarge required limit => limit = options.maxCompensation ∧ limit < required ∧
      IsGreatest {delay | patch.Demands delay} required

/-! ## Sizes -/

/-- The longest delay of one of the patch's signals, behind the port that gives
it or on the way to one consumer. -/
inductive Line : PortType → Nat → Prop where
  | idle {id index port} : patch.OutputAt id index port → (∀ consumer, ¬ patch.Feeds id consumer) →
      Line port.type 0
  | waiting {id index port delay} : patch.OutputAt id index port → patch.EarliestArrival id delay →
      Line port.type delay
  | branch {edge type delay} : patch.Branches edge type delay → Line type delay

end Patch

/-- The storage for one signal and a delay of it can be addressed. -/
def PortType.Storable (type : PortType) (options : CompileOptions) (delay : Nat) : Prop :=
  match type with
  | .audio channels => options.blockSize * max channels 1 * 4 < Count.storageLimit ∧
      delay * max channels 1 * 4 < Count.storageLimit
  | .control => True
  | .midi | .trigger => options.eventCapacity * 8 < Count.storageLimit ∧
      (0 < delay →
        (delay + max options.blockSize 1 - 1) / max options.blockSize 1 + 1 < Count.limit ∧
        options.eventCapacity * ((delay + max options.blockSize 1 - 1) / max options.blockSize 1 + 1)
          * 16 < Count.storageLimit)

/-- The sums of latencies along paths and the sizes of all storage, with lines of a
length that the options admit, are counts that their types can hold. -/
structure Patch.Representable (patch : Patch ν) (options : CompileOptions) : Prop where
  latencies : patch.Acyclic → ∀ id total, patch.Accumulates patch.declared id total →
    total < Count.limit
  lines : ∀ type delay, patch.Line type delay → delay ≤ options.maxCompensation →
    type.Storable options delay
  inputs : ∀ id index port, patch.InputAt id index port → ∀ channels, port.type = .audio channels →
    options.blockSize * max channels 1 < Count.limit

end Patchbay
