import Patchbay.Patch.Basic

/-! The edges of a placed patch, node by node and port by port.

Edges become leads between render positions. The leads are sorted by where they end, and
then a cursor passes along them twice: once to tell the nodes apart, and once to tell the
ports of each node apart.
-/

set_option autoImplicit false

namespace Patchbay

structure Wire where
  source : Nat
  sourcePort : Nat
  /-- The type of the source port. -/
  type : PortType
  gain : Sample
  deriving DecidableEq

structure Placed (ν : Type) where
  id : NodeId
  node : ν

structure Lead where
  dest : Nat
  destPort : Nat
  edge : EdgeId
  wire : Wire

namespace Lead

/-- Leads are ordered by where they end, and at one port by the ids of their edges. -/
def ahead (lead other : Lead) : Bool :=
  lead.dest < other.dest || lead.dest = other.dest &&
    (lead.destPort < other.destPort || lead.destPort = other.destPort && lead.edge.index ≤ other.edge.index)

def insert (lead : Lead) : List Lead → List Lead
  | [] => [lead]
  | first :: rest => if lead.ahead first then lead :: first :: rest else first :: lead.insert rest

def sort (leads : List Lead) : List Lead := leads.foldr insert []

def pass (belongs : Lead → Bool) : StateM (List Lead) (List Lead) :=
  modifyGet fun rest => (rest.takeWhile belongs, rest.dropWhile belongs)

end Lead

variable {ν : Type} [Node ν]

def Patch.leads (patch : Patch ν) (placed : List (Placed ν)) : List Lead :=
  patch.liveEdges.filterMap fun (id, edge) => do
    let source ← placed.findIdx? (·.id = edge.source)
    let output ← (Node.outputs (← placed[source]?).node)[edge.sourcePort]?
    let dest ← placed.findIdx? (·.id = edge.dest)
    return {
      dest
      destPort := edge.destPort
      edge := id
      wire := { source, sourcePort := edge.sourcePort, type := output.type, gain := edge.gain } }

/-- The leads into each node, from one pass along all of them. -/
def leadsByNode (placed : List (Placed ν)) : StateM (List Lead) (List (List Lead)) :=
  placed.zipIdx.mapM fun (_, position) => Lead.pass (·.dest = position)

def leadsByPort (placed : List (Placed ν)) : StateM (List Lead) (List (List (List Lead))) :=
  placed.zipIdx.mapM fun (place, position) =>
    (List.range (Node.inputs place.node).length).mapM fun port =>
      Lead.pass fun lead => lead.dest = position && lead.destPort = port

def wiring (patch : Patch ν) (placed : List (Placed ν)) : List (List (List Wire)) :=
  let (nodes, _) := (leadsByNode placed).run (Lead.sort (patch.leads placed))
  let (ports, _) := (leadsByPort placed).run nodes.flatten
  ports.map (·.map (·.map Lead.wire))

end Patchbay
