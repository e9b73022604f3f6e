import Patchbay.Node.Basic

/-! Patches: nodes and the gain-weighted edges between their ports, under edit.

Ids are positions that are handed out once and never move. Removing a node or
an edge leaves its place empty, so every other id stays valid. Nothing is
checked here; the compiler reports what is wrong with an edge.
-/

set_option autoImplicit false

namespace Patchbay

structure NodeId where
  index : Nat
  deriving DecidableEq

structure EdgeId where
  index : Nat
  deriving DecidableEq

def NodeId.text (id : NodeId) : String := "NodeId(" ++ toString id.index ++ ")"

def EdgeId.text (id : EdgeId) : String := "EdgeId(" ++ toString id.index ++ ")"

structure Edge where
  source : NodeId
  sourcePort : Nat
  dest : NodeId
  destPort : Nat
  gain : Sample
  deriving DecidableEq

inductive EditError where
  | nodeNotFound (id : NodeId)
  | edgeNotFound (source dest : NodeId)
  deriving DecidableEq

def EditError.message : EditError → String
  | .nodeNotFound id => id.text ++ " not found"
  | .edgeNotFound source dest => "no edge from " ++ source.text ++ " to " ++ dest.text

/-- Each id is a position; an empty place belonged to something removed. -/
structure Patch (ν : Type) where
  nodes : Array (Option ν)
  edges : Array (Option Edge)
  sink : Option NodeId

namespace Patch

variable {ν : Type}

def empty : Patch ν := ⟨#[], #[], none⟩

def node? (patch : Patch ν) (id : NodeId) : Option ν := patch.nodes[id.index]?.join

def edge? (patch : Patch ν) (id : EdgeId) : Option Edge := patch.edges[id.index]?.join

def liveNodes (patch : Patch ν) : List (NodeId × ν) :=
  patch.nodes.toList.zipIdx.filterMap fun (node, index) => node.map (⟨index⟩, ·)

def liveEdges (patch : Patch ν) : List (EdgeId × Edge) :=
  patch.edges.toList.zipIdx.filterMap fun (edge, index) => edge.map (⟨index⟩, ·)

def nodeCount (patch : Patch ν) : Nat := patch.liveNodes.length

def edgeCount (patch : Patch ν) : Nat := patch.liveEdges.length

def isEmpty (patch : Patch ν) : Bool := patch.liveNodes.isEmpty

def add (patch : Patch ν) (node : ν) : NodeId × Patch ν :=
  (⟨patch.nodes.size⟩, { patch with nodes := patch.nodes.push (some node) })

def connect (patch : Patch ν) (edge : Edge) : EdgeId × Patch ν :=
  (⟨patch.edges.size⟩, { patch with edges := patch.edges.push (some edge) })

def disconnect (patch : Patch ν) (id : EdgeId) : Option Edge × Patch ν :=
  match patch.edge? id with
  | some edge => (some edge, { patch with edges := patch.edges.setIfInBounds id.index none })
  | none => (none, patch)

def setGain (patch : Patch ν) (id : EdgeId) (gain : Sample) : Bool × Patch ν :=
  match patch.edge? id with
  | some edge =>
      (true, { patch with edges := patch.edges.setIfInBounds id.index (some { edge with gain }) })
  | none => (false, patch)

def setSink (patch : Patch ν) (id : NodeId) : Patch ν := { patch with sink := some id }

def between? (patch : Patch ν) (before after : NodeId) : Option (EdgeId × Edge) :=
  patch.liveEdges.find? fun (_, edge) => edge.source = before ∧ edge.dest = after

def bridges (incoming outgoing : List Edge) : List Edge :=
  incoming.flatMap fun before => outgoing.map fun after =>
    { before with dest := after.dest, destPort := after.destPort, gain := before.gain * after.gain }

def mapNodes {μ : Type} (change : ν → μ) (patch : Patch ν) : Patch μ :=
  { patch with nodes := patch.nodes.map (·.map change) }

end Patch

/-- An edit that is under way. If it stops with an error, the patch is left as far as the
edit has come. -/
abbrev Editing (ν α : Type) := ExceptT EditError (StateM (Patch ν)) α

namespace Editing

variable {ν : Type}

def demand (id : NodeId) : Editing ν ν := do
  match (← get).node? id with
  | some node => return node
  | none => throw (.nodeNotFound id)

def remove (id : NodeId) : Editing ν ν := do
  let node ← demand id
  modify fun patch => { patch with nodes := patch.nodes.setIfInBounds id.index none }
  modify fun patch => { patch with
    edges := patch.edges.map fun edge => edge.filter fun edge => edge.source ≠ id && edge.dest ≠ id }
  modify fun patch => { patch with sink := patch.sink.filter (· ≠ id) }
  return node

def replace (id : NodeId) (node : ν) : Editing ν ν := do
  let old ← demand id
  modify fun patch => { patch with nodes := patch.nodes.setIfInBounds id.index (some node) }
  return old

/-- Splices a node into the first edge between two nodes. The new node takes the
edge's signal at unity and passes it on with the edge's gain, through its first
ports. -/
def insertBetween (before after : NodeId) (node : ν) : Editing ν NodeId := do
  let _ ← demand before
  let _ ← demand after
  match (← get).between? before after with
  | none => throw (.edgeNotFound before after)
  | some (spliced, edge) =>
      let _ ← modifyGet (·.disconnect spliced)
      let id ← modifyGet (·.add node)
      let _ ← modifyGet (·.connect { edge with dest := id, destPort := 0, gain := 1 })
      let _ ← modifyGet (·.connect { edge with source := id, sourcePort := 0 })
      return id

/-- Removes a node and joins what fed it to what it fed. Edges from the node to
itself vanish. -/
def bypass (id : NodeId) : Editing ν ν := do
  let _ ← demand id
  let edges := (← get).liveEdges.map Prod.snd
  let incoming := edges.filter fun edge => edge.dest = id ∧ edge.source ≠ id
  let outgoing := edges.filter fun edge => edge.source = id ∧ edge.dest ≠ id
  let node ← remove id
  modify fun patch => (Patch.bridges incoming outgoing).foldl (fun patch edge => (patch.connect edge).2) patch
  return node

end Editing

namespace Patch

variable {ν α : Type}

def attempt (patch : Patch ν) (edit : Editing ν α) : Except EditError (α × Patch ν) :=
  let (answer, rest) := edit.run.run patch
  answer.map (·, rest)

def remove (patch : Patch ν) (id : NodeId) : Except EditError (ν × Patch ν) := patch.attempt (Editing.remove id)

def replace (patch : Patch ν) (id : NodeId) (node : ν) : Except EditError (ν × Patch ν) :=
  patch.attempt (Editing.replace id node)

def insertBetween (patch : Patch ν) (before after : NodeId) (node : ν) : Except EditError (NodeId × Patch ν) :=
  patch.attempt (Editing.insertBetween before after node)

def bypass (patch : Patch ν) (id : NodeId) : Except EditError (ν × Patch ν) := patch.attempt (Editing.bypass id)

end Patch

end Patchbay
