import Patchbay.Proofs.Patch.Editing
import Patchbay.Proofs.Plan.Wiring

/-! What stays when a node is removed.

Removing a node that leads nowhere near another one leaves alone all that leads to
the other one: the nodes, the edges between them, and the latencies that add up on
the way.
-/

set_option autoImplicit false

namespace Patchbay

namespace Patch

variable {ν : Type} {patch rest : Patch ν} {gone : NodeId} {removed : ν}

theorem edgesInto_eq {other : Patch ν} {id : NodeId} {port : Nat}
    (same : ∀ entry, entry ∈ other.edgesInto id port ↔ entry ∈ patch.edgesInto id port) :
    other.edgesInto id port = patch.edgesInto id port := by
  have distinct : ∀ whole : Patch ν, (whole.edgesInto id port).Nodup := fun whole =>
    (whole.edgesInto_pairwise id port).imp fun less equal => by
      rw [equal] at less
      exact Nat.lt_irrefl _ less
  refine List.Perm.eq_of_pairwise ?_ (other.edgesInto_pairwise id port) (patch.edgesInto_pairwise id port)
    ((List.perm_ext_iff_of_nodup (distinct other) (distinct patch)).mpr same)
  intro first second _ _ less more
  exact absurd less (Nat.lt_asymm more)

/-! ## Removal -/

section

variable (removes : patch.remove gone = .ok (removed, rest))
include removes

theorem remove_spec : (∃ node, patch.node? gone = some node) ∧ rest = {
    nodes := patch.nodes.setIfInBounds gone.index none
    edges := patch.edges.map fun edge => edge.filter fun edge => edge.source ≠ gone && edge.dest ≠ gone
    sink := patch.sink.filter (· ≠ gone) } := by
  rw [remove_eq] at removes
  split at removes
  · cases removes
  · rename_i present
    cases removes
    exact ⟨⟨_, present⟩, rfl⟩

theorem remove_node? {id : NodeId} (other : id ≠ gone) : rest.node? id = patch.node? id := by
  obtain ⟨_, rfl⟩ := remove_spec removes
  have apart : gone.index ≠ id.index := fun same => other (congrArg NodeId.mk same.symm)
  rw [node?, node?, Array.getElem?_setIfInBounds_ne apart]

theorem remove_node?_self : rest.node? gone = none := by
  obtain ⟨_, rfl⟩ := remove_spec removes
  rw [node?, Array.getElem?_setIfInBounds]
  simp only [if_true]
  split <;> rfl

theorem remove_edge? {id : EdgeId} {edge : Edge} :
    rest.edge? id = some edge ↔ patch.edge? id = some edge ∧ edge.source ≠ gone ∧ edge.dest ≠ gone := by
  obtain ⟨_, rfl⟩ := remove_spec removes
  simp [edge?, Option.join_eq_some_iff, Option.map_eq_some_iff, Option.filter_eq_some_iff]

theorem remove_present {id : NodeId} {node : ν} (present : rest.node? id = some node) :
    patch.node? id = some node := by
  by_cases same : id = gone
  · rw [same, remove_node?_self removes] at present
    cases present
  · rwa [remove_node? removes same] at present

theorem remove_feeds_iff {source dest : NodeId} :
    rest.Feeds source dest ↔ patch.Feeds source dest ∧ source ≠ gone ∧ dest ≠ gone := by
  unfold Feeds
  simp only [remove_edge? removes]
  constructor
  · rintro ⟨id, edge, ⟨found, apart⟩, rfl, rfl⟩
    exact ⟨⟨id, edge, found, rfl, rfl⟩, apart⟩
  · rintro ⟨⟨id, edge, found, rfl, rfl⟩, apart⟩
    exact ⟨id, edge, ⟨found, apart⟩, rfl, rfl⟩

theorem remove_feeds_of {source dest : NodeId} (feeds : rest.Feeds source dest) : patch.Feeds source dest :=
  ((remove_feeds_iff removes).mp feeds).1

theorem remove_sink {id : NodeId} : rest.sink = some id ↔ patch.sink = some id ∧ id ≠ gone := by
  obtain ⟨_, rfl⟩ := remove_spec removes
  simp [Option.filter_eq_some_iff]

/-! ## What leads elsewhere -/

variable {target : NodeId} (apart : ¬ Relation.ReflTransGen patch.Feeds gone target)
include apart

omit removes in
theorem ne_of_leads {id : NodeId} (leads : Relation.ReflTransGen patch.Feeds id target) : id ≠ gone := by
  rintro rfl
  exact apart leads

theorem remove_edge?_leading {id : EdgeId} {edge : Edge} (leads : Relation.ReflTransGen patch.Feeds edge.dest target) :
    rest.edge? id = some edge ↔ patch.edge? id = some edge := by
  rw [remove_edge? removes]
  refine and_iff_left_of_imp fun found => ⟨ne_of_leads apart (.head ⟨id, edge, found, rfl, rfl⟩ leads), ?_⟩
  exact ne_of_leads apart leads

theorem remove_feeds {source dest : NodeId} (leads : Relation.ReflTransGen patch.Feeds dest target) :
    rest.Feeds source dest ↔ patch.Feeds source dest := by
  unfold Feeds
  refine exists_congr fun id => exists_congr fun edge => and_congr_left ?_
  rintro ⟨_, rfl⟩
  exact remove_edge?_leading removes apart leads

theorem remove_edgesInto {id : NodeId} (leads : Relation.ReflTransGen patch.Feeds id target) (port : Nat) :
    rest.edgesInto id port = patch.edgesInto id port := by
  refine edgesInto_eq fun entry => ?_
  rw [mem_edgesInto, mem_edgesInto]
  refine and_congr_left ?_
  rintro ⟨rfl, _⟩
  exact remove_edge?_leading removes apart leads

end

/-! ## Latencies -/

theorem Accumulates.carry {other : Patch ν} {latency latency' : NodeId → Nat} (among : NodeId → Prop)
    (feeds : ∀ source dest, among dest → patch.Feeds source dest →
      among source ∧ other.Feeds source dest ∧ latency' source = latency source)
    {id : NodeId} {total : Nat} (path : patch.Accumulates latency id total) (member : among id) :
    other.Accumulates latency' id total := by
  induction path with
  | start id => exact .start id
  | step edge _ ih =>
    obtain ⟨sooner, there, same⟩ := feeds _ _ member edge
    exact same ▸ .step there (ih sooner)

section

variable [Node ν] (removes : patch.remove gone = .ok (removed, rest)) {target : NodeId}
  (apart : ¬ Relation.ReflTransGen patch.Feeds gone target) {id : NodeId}
  (leads : Relation.ReflTransGen patch.Feeds id target)
include removes apart leads

theorem remove_latency : rest.latency id = patch.latency id := by
  rw [Patch.latency, Patch.latency, remove_node? removes (ne_of_leads apart leads)]

theorem remove_isArrival {arrival : Nat} :
    rest.IsArrival rest.latency id arrival ↔ patch.IsArrival patch.latency id arrival := by
  have same : ∀ total, rest.Accumulates rest.latency id total ↔ patch.Accumulates patch.latency id total := by
    intro total
    constructor
    · refine fun path => path.carry (Relation.ReflTransGen patch.Feeds · target) ?_ leads
      intro source dest leads feeds
      have feeds := (remove_feeds removes apart leads).mp feeds
      have leads := Relation.ReflTransGen.head feeds leads
      exact ⟨leads, feeds, (remove_latency removes apart leads).symm⟩
    · refine fun path => path.carry (Relation.ReflTransGen patch.Feeds · target) ?_ leads
      intro source dest leads feeds
      have sooner := Relation.ReflTransGen.head feeds leads
      exact ⟨sooner, (remove_feeds removes apart leads).mpr feeds, remove_latency removes apart sooner⟩
  simp only [IsArrival, same]

end

end Patch

end Patchbay
