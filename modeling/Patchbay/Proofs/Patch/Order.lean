import Patchbay.Proofs.Patch.Paths
import Patchbay.Proofs.Patch.Placing

/-! The render order of a patch.

Where every edge joins two nodes, an answered order lists each node once, behind
all that feed it, and there is such an order unless the patch has a cycle. A
node that cannot be placed has a cycle behind it, because something else that
cannot be placed feeds it.
-/

set_option autoImplicit false

namespace Patchbay

namespace Patch

variable {ν : Type} {patch : Patch ν}

def Joined (patch : Patch ν) : Prop :=
  ∀ {id edge}, patch.edge? id = some edge →
    (∃ source, patch.node? edge.source = some source) ∧ ∃ dest, patch.node? edge.dest = some dest

theorem joined_iff : patch.Joined ↔ ∀ entry ∈ patch.liveEdges,
    (patch.node? entry.2.source).isSome = true ∧ (patch.node? entry.2.dest).isSome = true := by
  simp only [Option.isSome_iff_exists]
  constructor
  · intro joined entry member
    exact joined (mem_liveEdges.mp member)
  · intro ends id edge found
    exact ends (id, edge) (mem_liveEdges.mpr found)

instance : Decidable patch.Joined := decidable_of_iff _ joined_iff.symm

theorem mem_liveSlots {slot : Nat} :
    slot ∈ patch.liveSlots ↔ ∃ node, patch.node? ⟨slot⟩ = some node := by
  simp only [liveSlots, List.mem_map, Prod.exists, mem_liveNodes]
  constructor
  · rintro ⟨⟨index⟩, node, found, rfl⟩
    exact ⟨node, found⟩
  · rintro ⟨node, found⟩
    exact ⟨⟨slot⟩, node, found, rfl⟩

theorem lt_size_of_mem_liveSlots {slot : Nat} (live : slot ∈ patch.liveSlots) :
    slot < patch.nodes.size := by
  obtain ⟨node, found⟩ := mem_liveSlots.mp live
  by_contra outside
  simp [node?, outside] at found

theorem mem_across {here there : Edge → NodeId} {slot other : Nat} : other ∈ patch.across here there slot ↔
    ∃ id edge, patch.edge? id = some edge ∧ here edge = ⟨slot⟩ ∧ there edge = ⟨other⟩ := by
  simp only [across, List.mem_map, List.mem_filter, Prod.exists, mem_liveEdges, decide_eq_true_eq]
  constructor
  · rintro ⟨id, edge, ⟨found, rfl⟩, rfl⟩
    exact ⟨id, edge, found, rfl, rfl⟩
  · rintro ⟨id, edge, found, at_, beyond⟩
    exact ⟨id, edge, ⟨found, by rw [at_]⟩, by rw [beyond]⟩

theorem mem_outgoing {slot dest : Nat} : dest ∈ patch.outgoing slot ↔ patch.Feeds ⟨slot⟩ ⟨dest⟩ := mem_across

theorem mem_feeders {slot feeder : Nat} : feeder ∈ patch.feeders slot ↔ patch.Feeds ⟨feeder⟩ ⟨slot⟩ := by
  rw [feeders, mem_across]
  exact exists₂_congr fun _ _ => and_congr_right fun _ => and_comm

theorem count_outgoing (source dest : Nat) :
    (patch.outgoing source).count dest = (patch.feeders dest).count source := by
  unfold outgoing feeders across
  rw [List.count_eq_countP, List.count_eq_countP, List.countP_map, List.countP_map, List.countP_filter,
    List.countP_filter]
  apply List.countP_congr
  intro entry _
  simp [and_comm]

theorem liveSlots_pairwise : patch.liveSlots.Pairwise (· < ·) := by
  unfold liveSlots liveNodes
  rw [List.map_filterMap, List.pairwise_filterMap]
  have positions : (patch.nodes.toList.zipIdx).Pairwise fun first second => first.2 < second.2 := by
    rw [← List.pairwise_map (f := Prod.snd) (R := (· < ·)), List.zipIdx_map_snd]
    exact List.pairwise_lt_range'
  refine positions.imp ?_
  rintro ⟨first, index⟩ ⟨second, later⟩ less slot here slot' there
  cases first <;> cases second <;> simp_all

theorem liveSlots_nodup : patch.liveSlots.Nodup :=
  liveSlots_pairwise.imp Nat.ne_of_lt

structure Ordered (patch : Patch ν) (order : List Nat) : Prop where
  perm : order.Perm patch.liveSlots
  respects : RenderOrder.Respects patch.feeders order

theorem Joined.ends (joined : patch.Joined) {source dest : NodeId} (feeds : patch.Feeds source dest) :
    source.index ∈ patch.liveSlots ∧ dest.index ∈ patch.liveSlots := by
  obtain ⟨id, edge, found, rfl, rfl⟩ := feeds
  obtain ⟨source, dest⟩ := joined found
  exact ⟨mem_liveSlots.mpr source, mem_liveSlots.mpr dest⟩

theorem getD_table {α : Type} {size : Nat} {entry : Nat → α} {missing : α}
    (beyond : ∀ slot, size ≤ slot → entry slot = missing) (slot : Nat) :
    ((Array.range size).map entry).getD slot missing = entry slot := by
  rw [Array.getD_eq_getD_getElem?]
  by_cases inside : slot < size
  · simp [inside]
  · simp [inside, beyond slot (Nat.le_of_not_lt inside)]

theorem startOrder_underway (joined : patch.Joined) :
    RenderOrder.Progress.Underway patch.feeders patch.liveSlots patch.startOrder patch.liveSlots := by
  have degrees : ∀ slot, patch.startOrder.degrees.getD slot 0 =
      RenderOrder.unfed patch.feeders patch.startOrder.placed slot := by
    intro slot
    unfold startOrder
    rw [getD_table]
    · simp [RenderOrder.unfed]
    · intro slot outside
      rw [List.length_eq_zero_iff, List.eq_nil_iff_forall_not_mem]
      intro feeder feeds
      exact absurd (lt_size_of_mem_liveSlots (joined.ends (mem_feeders.mp feeds)).2) (Nat.not_lt.mpr outside)
  refine ⟨⟨degrees, ?_⟩, liveSlots_pairwise, .nil, .refl _⟩
  apply List.filter_congr
  intro slot _
  exact decide_eq_decide.mpr (by rw [← degrees]; rfl)

theorem finishOrder_underway (joined : patch.Joined) : ∃ left,
    RenderOrder.place patch.feeders patch.liveSlots.length [] patch.liveSlots = (patch.finishOrder.placed, left) ∧
      RenderOrder.Progress.Underway patch.feeders patch.liveSlots patch.finishOrder left := by
  have outgoing : (((Array.range patch.nodes.size).map patch.outgoing).getD · []) = patch.outgoing := by
    funext slot
    apply getD_table
    intro slot outside
    rw [List.eq_nil_iff_forall_not_mem]
    intro dest leads
    exact absurd (lt_size_of_mem_liveSlots (joined.ends (mem_outgoing.mp leads)).1) (Nat.not_lt.mpr outside)
  have stays : ∀ source, ∀ dest ∈ patch.outgoing source, dest ∈ patch.liveSlots := by
    intro source dest leads
    exact (joined.ends (mem_outgoing.mp leads)).2
  unfold finishOrder
  simp only [outgoing]
  exact (startOrder_underway joined).run liveSlots_nodup stays count_outgoing

/-- The order is what placing the live slots comes to, and the first slot that is left
over is the one to name. -/
theorem renderOrder_eq (joined : patch.Joined) {order left : List Nat}
    (answer : RenderOrder.place patch.feeders patch.liveSlots.length [] patch.liveSlots = (order, left)) :
    patch.renderOrder = left.head?.elim (.ok order) fun stuck => .error ⟨stuck⟩ := by
  obtain ⟨rest, same, last⟩ := finishOrder_underway joined
  obtain ⟨perm, _, waiting⟩ := RenderOrder.place_spec (le_refl _) .nil answer
  obtain ⟨rfl, rfl⟩ := Prod.mk.inj (answer.symm.trans same)
  have count := perm.length_eq
  rw [List.length_append, List.nil_append] at count
  unfold renderOrder
  cases left with
  | nil =>
    rw [List.length_nil, Nat.add_zero] at count
    rw [if_neg (Nat.not_lt.mpr count.ge)]
    rfl
  | cons first rest =>
    rw [List.length_cons] at count
    rw [if_pos (by omega), ← List.head?_filter, last.filter_eq liveSlots_pairwise waiting]
    rfl

theorem renderOrder_cases (joined : patch.Joined) :
    (∃ order, patch.renderOrder = .ok order ∧ patch.Ordered order) ∨
    ∃ stuck, patch.renderOrder = .error stuck ∧ patch.OnOrBehindCycle stuck := by
  generalize answer : RenderOrder.place patch.feeders patch.liveSlots.length [] patch.liveSlots = result
  obtain ⟨order, left⟩ := result
  obtain ⟨perm, respects, waiting⟩ := RenderOrder.place_spec (le_refl _) .nil answer
  rw [List.nil_append] at perm
  rw [renderOrder_eq joined answer]
  cases left with
  | nil => exact .inl ⟨order, rfl, by simpa using perm, respects⟩
  | cons stuck rest =>
    refine .inr ⟨⟨stuck⟩, rfl, ?_⟩
    -- What is left over waits for something without a place, and that is left over itself.
    have fed : ∀ id ∈ (stuck :: rest).map NodeId.mk, ∃ source ∈ (stuck :: rest).map NodeId.mk,
        patch.Feeds source id := by
      intro id member
      obtain ⟨slot, inLeft, rfl⟩ := List.mem_map.mp member
      obtain ⟨feeder, feeds, absent⟩ := waiting slot inLeft
      obtain ⟨id, edge, found, source, dest⟩ := mem_feeders.mp feeds
      have present : feeder ∈ patch.liveSlots := by
        rw [mem_liveSlots, ← source]
        exact (joined found).1
      rcases List.mem_append.mp (perm.symm.subset present) with inOrder | inLeft
      · exact absurd inOrder absent
      · exact ⟨⟨feeder⟩, List.mem_map.mpr ⟨feeder, inLeft, rfl⟩, id, edge, found, source, dest⟩
    exact onOrBehindCycle_of_fed fed (by simp)

section Ordered

variable {order : List Nat} (ordered : patch.Ordered order)
include ordered

theorem Ordered.nodup : order.Nodup := ordered.perm.nodup_iff.mpr liveSlots_nodup

theorem Ordered.mem_iff {slot : Nat} : slot ∈ order ↔ ∃ node, patch.node? ⟨slot⟩ = some node := by
  rw [ordered.perm.mem_iff, mem_liveSlots]

theorem Ordered.precedes {position slot feeder : Nat} (found : order[position]? = some slot)
    (feeds : patch.Feeds ⟨feeder⟩ ⟨slot⟩) : ∃ earlier < position, order[earlier]? = some feeder := by
  obtain ⟨inside, same⟩ := List.getElem?_eq_some_iff.mp found
  have split : order = order.take position ++ slot :: order.drop (position + 1) := by
    rw [← same, ← List.drop_eq_getElem_cons inside, List.take_append_drop]
  have member := ordered.respects _ _ _ split feeder (mem_feeders.mpr feeds)
  obtain ⟨earlier, item⟩ := List.mem_iff_getElem?.mp member
  rw [List.getElem?_take] at item
  split at item
  · exact ⟨earlier, ‹_›, item⟩
  · cases item

theorem Ordered.position_unique {first second slot : Nat} (here : order[first]? = some slot)
    (there : order[second]? = some slot) : first = second := by
  obtain ⟨inside, same⟩ := List.getElem?_eq_some_iff.mp here
  obtain ⟨inside', same'⟩ := List.getElem?_eq_some_iff.mp there
  exact (List.Nodup.getElem_inj_iff ordered.nodup).mp (same.trans same'.symm)

theorem Ordered.acyclic (joined : patch.Joined) : patch.Acyclic := by
  have earlier : ∀ {source dest}, Relation.TransGen patch.Feeds source dest →
      ∀ (position : Nat), order[position]? = some dest.index →
        ∃ before < position, order[before]? = some source.index := by
    intro source dest path
    induction path using Relation.TransGen.head_induction_on with
    | single feeds => exact fun position found => ordered.precedes found feeds
    | @head source middle feeds _ ih =>
      intro position found
      obtain ⟨between, less, item⟩ := ih position found
      obtain ⟨before, lesser, item⟩ := ordered.precedes item feeds
      exact ⟨before, by omega, item⟩
  intro id cycle
  have live : id.index ∈ order := by
    rw [ordered.mem_iff]
    obtain ⟨_, ⟨edgeId, edge, found, rfl, _⟩, _⟩ := Relation.TransGen.head'_iff.mp cycle
    exact (joined found).1
  obtain ⟨position, found⟩ := List.mem_iff_getElem?.mp live
  obtain ⟨before, less, item⟩ := earlier cycle position found
  exact absurd (ordered.position_unique item found) (by omega)

end Ordered

/-- A patch has an order exactly when it has no cycle. -/
theorem renderOrder_ok_iff (joined : patch.Joined) :
    (∃ order, patch.renderOrder = .ok order) ↔ patch.Acyclic := by
  rcases renderOrder_cases joined with ⟨order, answer, ordered⟩ | ⟨stuck, answer, origin, cycle, _⟩
  · exact ⟨fun _ => ordered.acyclic joined, fun _ => ⟨order, answer⟩⟩
  · constructor
    · rintro ⟨order, again⟩
      rw [answer] at again
      cases again
    · intro acyclic
      exact absurd cycle (acyclic origin)

end Patch

end Patchbay
