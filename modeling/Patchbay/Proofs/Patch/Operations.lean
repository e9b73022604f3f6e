import Mathlib.Logic.Function.Basic
import Patchbay.Proofs.Patch.Removal

/-! What each edit does to the nodes, the edges and the sink of a patch.

An edit writes places that are there or adds places at the end. The edits that are
made of other edits are taken apart into them.
-/

set_option autoImplicit false

namespace Patchbay

namespace Patch

variable {ν : Type} {patch rest : Patch ν}

def Live (patch : Patch ν) (id : NodeId) : Prop := ∃ node, patch.node? id = some node

/-! ## Places -/

section

variable {α : Type} {places : Array (Option α)} {place : Nat} {item? : Option α}

theorem lt_size_of_join {item : α} (present : places[place]?.join = some item) : place < places.size := by
  by_contra outside
  simp [Array.getElem?_eq_none (Nat.le_of_not_lt outside)] at present

theorem join_push (index : Nat) :
    (places.push item?)[index]?.join = if index = places.size then item? else places[index]?.join := by
  rw [Array.getElem?_push]
  split <;> rfl

theorem join_set (inside : place < places.size) (index : Nat) :
    (places.setIfInBounds place item?)[index]?.join = if index = place then item? else places[index]?.join := by
  rw [Array.getElem?_setIfInBounds]
  by_cases same : place = index
  · subst same
    simp [inside]
  · simp [same, Ne.symm same]

end

theorem lt_size_of_node? {id : NodeId} {node : ν} (present : patch.node? id = some node) :
    id.index < patch.nodes.size := lt_size_of_join present

theorem lt_size_of_edge? {id : EdgeId} {edge : Edge} (present : patch.edge? id = some edge) :
    id.index < patch.edges.size := lt_size_of_join present

/-! ## Additions -/

@[simp] theorem add_node? (node : ν) :
    (patch.add node).2.node? = Function.update patch.node? (patch.add node).1 (some node) := by
  funext ⟨index⟩
  simp [add, node?, join_push, Function.update_apply]

@[simp] theorem add_edge? (node : ν) : (patch.add node).2.edge? = patch.edge? := rfl

@[simp] theorem connect_node? (edge : Edge) : (patch.connect edge).2.node? = patch.node? := rfl

@[simp] theorem connect_edge? (edge : Edge) :
    (patch.connect edge).2.edge? = Function.update patch.edge? (patch.connect edge).1 (some edge) := by
  funext ⟨index⟩
  simp [connect, edge?, join_push, Function.update_apply]

theorem foldl_connect (edges : List Edge) : edges.foldl (fun patch edge => (patch.connect edge).2) patch =
    { patch with edges := patch.edges ++ (edges.map some).toArray } := by
  induction edges generalizing patch with
  | nil => simp
  | cons edge later ih =>
    rw [List.foldl_cons, ih]
    simp [connect]

/-! ## Changes in place -/

theorem replace_spec {id : NodeId} {node old : ν} (replaces : patch.replace id node = .ok (old, rest)) :
    patch.node? id = some old ∧ rest.node? = Function.update patch.node? id (some node) ∧
      rest.edges = patch.edges ∧ rest.sink = patch.sink ∧ rest.nodes.size = patch.nodes.size := by
  rw [replace_eq] at replaces
  split at replaces
  · cases replaces
  · rename_i present
    cases replaces
    refine ⟨present, ?_, rfl, rfl, by simp⟩
    funext ⟨index⟩
    obtain ⟨place⟩ := id
    simp [node?, join_set (lt_size_of_node? present), Function.update_apply]

theorem disconnect_edge? (gone : EdgeId) :
    (patch.disconnect gone).2.edge? = Function.update patch.edge? gone none := by
  unfold disconnect
  split
  · rename_i present
    funext ⟨index⟩
    obtain ⟨place⟩ := gone
    simp [edge?, join_set (lt_size_of_edge? present), Function.update_apply]
  · rename_i absent
    exact (Function.update_eq_self_iff.mpr absent.symm).symm

theorem disconnect_rest (gone : EdgeId) : (patch.disconnect gone).2.nodes = patch.nodes ∧
    (patch.disconnect gone).2.sink = patch.sink ∧ (patch.disconnect gone).2.edges.size = patch.edges.size := by
  unfold disconnect
  split <;> simp

theorem setGain_edge? (there : EdgeId) (gain : Sample) : (patch.setGain there gain).2.edge? =
    Function.update patch.edge? there ((patch.edge? there).map ({ · with gain })) := by
  unfold setGain
  split
  · rename_i present
    funext ⟨index⟩
    obtain ⟨place⟩ := there
    rw [present]
    simp [edge?, join_set (lt_size_of_edge? present), Function.update_apply]
  · rename_i absent
    simp [absent]

theorem setGain_rest (there : EdgeId) (gain : Sample) : (patch.setGain there gain).2.nodes = patch.nodes ∧
    (patch.setGain there gain).2.sink = patch.sink ∧ (patch.setGain there gain).2.edges.size = patch.edges.size := by
  unfold setGain
  split <;> simp

/-! ## Compound edits -/

theorem between?_spec {before after : NodeId} {id : EdgeId} {edge : Edge}
    (found : patch.between? before after = some (id, edge)) :
    patch.edge? id = some edge ∧ edge.source = before ∧ edge.dest = after := by
  have joins := List.find?_some found
  exact ⟨mem_liveEdges.mp (List.mem_of_find?_eq_some found), by simpa using joins⟩

theorem between?_eq_none {before after : NodeId} :
    patch.between? before after = none ↔ ¬ patch.Feeds before after := by
  unfold between? Feeds
  simp only [List.find?_eq_none, Prod.forall, mem_liveEdges]
  simp

/-- A node is spliced in by taking an edge out, adding the node and connecting it on
both sides. -/
theorem insertBetween_spec {before after id : NodeId} {node : ν}
    (inserts : patch.insertBetween before after node = .ok (id, rest)) :
    ∃ spliced edge, patch.between? before after = some (spliced, edge) ∧
      id = ((patch.disconnect spliced).2.add node).1 ∧
      rest = (((((patch.disconnect spliced).2.add node).2.connect
        { edge with dest := id, destPort := 0, gain := 1 }).2.connect
          { edge with source := id, sourcePort := 0 }).2) := by
  rw [insertBetween_eq] at inserts
  split at inserts
  · cases inserts
  split at inserts
  · cases inserts
  split at inserts
  · cases inserts
  · rename_i spliced edge found
    cases inserts
    exact ⟨spliced, edge, found, rfl, rfl⟩

/-- A node is bypassed by removing it and connecting what is left of its edges. -/
theorem bypass_spec {id : NodeId} {node : ν} (bypasses : patch.bypass id = .ok (node, rest)) :
    ∃ without, patch.remove id = .ok (node, without) ∧
      rest = (bridges
        ((patch.liveEdges.map Prod.snd).filter fun edge => edge.dest = id ∧ edge.source ≠ id)
        ((patch.liveEdges.map Prod.snd).filter fun edge => edge.source = id ∧ edge.dest ≠ id)).foldl
          (fun patch edge => (patch.connect edge).2) without := by
  rw [bypass_eq] at bypasses
  cases removes : patch.remove id with
  | error error =>
    rw [removes] at bypasses
    cases bypasses
  | ok removed =>
    rw [removes] at bypasses
    cases bypasses
    exact ⟨removed.2, rfl, rfl⟩

end Patch

end Patchbay
