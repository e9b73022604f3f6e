import Mathlib.Order.Bounds.Basic
import Patchbay.Patch.Basic
import Patchbay.Proofs.Cycles

/-! Paths through a patch.

Which node feeds which, what lies on a cycle or behind one, and the latency that
a path adds up. Everything here speaks of the edges that are present and of
nothing that a compiler makes of them.
-/

set_option autoImplicit false

namespace Patchbay

namespace Patch

variable {ν : Type} {patch : Patch ν}

theorem mem_liveNodes {id : NodeId} {node : ν} :
    (id, node) ∈ patch.liveNodes ↔ patch.node? id = some node := by
  obtain ⟨index⟩ := id
  simp only [liveNodes, List.mem_filterMap, Prod.exists, List.mem_zipIdx_iff_getElem?,
    Option.map_eq_some_iff, Prod.mk.injEq, NodeId.mk.injEq, Array.getElem?_toList, node?,
    Option.join_eq_some_iff]
  constructor
  · rintro ⟨_, _, found, _, rfl, rfl, rfl⟩
    exact found
  · intro found
    exact ⟨some node, index, found, node, rfl, rfl, rfl⟩

theorem mem_liveEdges {id : EdgeId} {edge : Edge} :
    (id, edge) ∈ patch.liveEdges ↔ patch.edge? id = some edge := by
  obtain ⟨index⟩ := id
  simp only [liveEdges, List.mem_filterMap, Prod.exists, List.mem_zipIdx_iff_getElem?,
    Option.map_eq_some_iff, Prod.mk.injEq, EdgeId.mk.injEq, Array.getElem?_toList, edge?,
    Option.join_eq_some_iff]
  constructor
  · rintro ⟨_, _, found, _, rfl, rfl, rfl⟩
    exact found
  · intro found
    exact ⟨some edge, index, found, edge, rfl, rfl, rfl⟩

theorem isEmpty_iff : patch.isEmpty = true ↔ ∀ id, patch.node? id = none := by
  unfold isEmpty
  rw [List.isEmpty_iff, List.eq_nil_iff_forall_not_mem]
  simp only [Prod.forall, mem_liveNodes, Option.eq_none_iff_forall_not_mem, Option.mem_def]

def Feeds (patch : Patch ν) (source dest : NodeId) : Prop :=
  ∃ id edge, patch.edge? id = some edge ∧ edge.source = source ∧ edge.dest = dest

def Acyclic (patch : Patch ν) : Prop := ∀ id, ¬ Relation.TransGen patch.Feeds id id

def OnOrBehindCycle (patch : Patch ν) (id : NodeId) : Prop :=
  ∃ origin, Relation.TransGen patch.Feeds origin origin ∧ Relation.ReflTransGen patch.Feeds origin id

/-- Among finitely many nodes each of which is fed by another one of them, a cycle
leads to every one. -/
theorem onOrBehindCycle_of_fed {stuck : List NodeId}
    (fed : ∀ id ∈ stuck, ∃ source ∈ stuck, patch.Feeds source id) {id : NodeId} (member : id ∈ stuck) :
    patch.OnOrBehindCycle id :=
  onOrBehind_of_fed fed member

/-! ## Latencies along paths -/

/-- A path into a node along which the latencies of the nodes it leaves add up to
a total. -/
inductive Accumulates (patch : Patch ν) (latency : NodeId → Nat) : NodeId → Nat → Prop where
  | start (id : NodeId) : Accumulates patch latency id 0
  | step {source dest : NodeId} {total : Nat} : patch.Feeds source dest →
      Accumulates patch latency source total →
      Accumulates patch latency dest (total + latency source)

def IsArrival (patch : Patch ν) (latency : NodeId → Nat) (id : NodeId) (arrival : Nat) : Prop :=
  IsGreatest {total | patch.Accumulates latency id total} arrival

end Patch

end Patchbay
