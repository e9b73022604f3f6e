import Mathlib.Data.List.Lex
import Patchbay.Node.Builtin
import Patchbay.Proofs.Patch.Order

/-! The canonical order of a patch.

Of the orders that list every node behind all that feeds it, placing the lowest ready
slot each time finds the one that is first in the lexicographic order, as any other
one has a higher slot at the place where the two part. What cannot be placed is what lies
on a cycle or behind one, and the lowest such slot is named.
-/

set_option autoImplicit false

namespace Patchbay

namespace RenderOrder

variable {feeders : Nat → List Nat}

theorem find?_ready_le {placed pending : List Nat} (ascending : pending.Pairwise (· < ·)) {slot other : Nat}
    (found : pending.find? (ready feeders placed) = some slot) (member : other ∈ pending)
    (isReady : ready feeders placed other = true) : slot ≤ other := by
  obtain ⟨_, before, after, rfl, waiting⟩ := List.find?_eq_some_iff_append.mp found
  rcases List.mem_append.mp member with early | late
  · exact absurd isReady (by simpa using waiting other early)
  · rcases List.mem_cons.mp late with rfl | behind
    · exact le_refl _
    · exact (List.rel_of_pairwise_cons (List.pairwise_append.mp ascending).2.1 behind).le

theorem le_append (placed rest : List Nat) : placed ≤ placed ++ rest :=
  not_lt.mp (List.prefix_append placed rest).le

/-- No other way to go on from what is placed comes first in the lexicographic order. -/
theorem place_le {rounds : Nat} {placed pending order left : List Nat} (ascending : pending.Pairwise (· < ·))
    (answer : place feeders rounds placed pending = (order, left)) {rest : List Nat} (perm : rest.Perm pending)
    (respects : Respects feeders (placed ++ rest)) : order ≤ placed ++ rest := by
  induction rounds generalizing placed pending rest with
  | zero =>
    cases answer
    exact le_append _ rest
  | succ rounds ih =>
    unfold place at answer
    split at answer
    · cases answer
      exact le_append _ rest
    · rename_i slot found
      cases rest with
      | nil =>
        rw [List.nil_perm.mp perm] at found
        cases found
      | cons first later =>
        have isReady : ready feeders placed first = true := ready_eq_true.mpr (respects placed first later rfl)
        have lowest := find?_ready_le ascending found (perm.subset List.mem_cons_self) isReady
        rcases lowest.eq_or_lt with rfl | lower
        · -- Both go on with the same slot.
          rw [List.append_cons] at respects ⊢
          exact ih (ascending.sublist List.erase_sublist) answer (List.cons_perm_iff_perm_erase.mp perm).2 respects
        · -- The two part here.
          obtain ⟨more, rfl⟩ := (place_keeps answer).1
          rw [List.append_assoc]
          exact le_of_lt (List.Lex.append_left _ (.rel lower) placed)

end RenderOrder

namespace Patch

variable {ν : Type} {patch : Patch ν}

theorem not_onOrBehindCycle {order : List Nat} (respects : RenderOrder.Respects patch.feeders order) :
    ∀ slot ∈ order, ¬ patch.OnOrBehindCycle ⟨slot⟩ := by
  apply respects.forall (motive := fun slot => ¬ patch.OnOrBehindCycle ⟨slot⟩)
  intro slot free behind
  obtain ⟨source, feeds, sooner⟩ := OnOrBehind.fed behind
  exact free source.index (mem_feeders.mpr feeds) sooner

/-- An order that is found comes first among all orders. -/
theorem renderOrder_least (joined : patch.Joined) {order : List Nat} (found : patch.renderOrder = .ok order) :
    IsLeast {order | patch.Ordered order} order := by
  constructor
  · rcases renderOrder_cases joined with ⟨_, answer, ordered⟩ | ⟨stuck, answer, _⟩
    · rw [found] at answer
      cases answer
      exact ordered
    · rw [found] at answer
      cases answer
  · intro other ordered
    generalize answer : RenderOrder.place patch.feeders patch.liveSlots.length [] patch.liveSlots = result
    obtain ⟨placed, left⟩ := result
    rw [renderOrder_eq joined answer] at found
    cases left with
    | nil =>
      cases found
      exact RenderOrder.place_le liveSlots_pairwise answer ordered.perm ordered.respects
    | cons => cases found

/-- A slot that is named is the lowest of those on a cycle or behind one. -/
theorem renderOrder_stuck (joined : patch.Joined) {stuck : NodeId} (refused : patch.renderOrder = .error stuck) :
    IsLeast {slot | slot ∈ patch.liveSlots ∧ patch.OnOrBehindCycle ⟨slot⟩} stuck.index := by
  have behind : patch.OnOrBehindCycle stuck := by
    rcases renderOrder_cases joined with ⟨_, answer, _⟩ | ⟨_, answer, behind⟩
    · rw [refused] at answer
      cases answer
    · rw [refused] at answer
      cases answer
      exact behind
  generalize answer : RenderOrder.place patch.feeders patch.liveSlots.length [] patch.liveSlots = result
  obtain ⟨placed, left⟩ := result
  obtain ⟨perm, respects, _⟩ := RenderOrder.place_spec (le_refl _) .nil answer
  obtain ⟨_, sublist⟩ := RenderOrder.place_keeps answer
  rw [renderOrder_eq joined answer] at refused
  cases left with
  | nil => cases refused
  | cons first rest =>
    cases refused
    refine ⟨⟨sublist.subset List.mem_cons_self, behind⟩, ?_⟩
    intro slot ⟨live, cyclic⟩
    -- What a cycle leads to is not placed, so it is left over, in ascending order.
    have remains : slot ∈ first :: rest := by
      apply (List.mem_append.mp (perm.mem_iff.mpr live)).resolve_left
      intro member
      exact not_onOrBehindCycle respects slot member cyclic
    rcases List.mem_cons.mp remains with rfl | later
    · exact le_refl _
    · exact (List.rel_of_pairwise_cons (liveSlots_pairwise.sublist sublist) later).le

/-- The order depends only on which slots are live and which of them feed which. -/
theorem renderOrder_congr (joined : patch.Joined) {μ : Type} {other : Patch μ}
    (slots : ∀ slot, slot ∈ other.liveSlots ↔ slot ∈ patch.liveSlots)
    (feeds : ∀ source dest, other.Feeds source dest ↔ patch.Feeds source dest) :
    other.renderOrder = patch.renderOrder := by
  have joined' : other.Joined := by
    intro id edge found
    obtain ⟨source, dest⟩ := joined.ends ((feeds edge.source edge.dest).mp ⟨id, edge, found, rfl, rfl⟩)
    exact ⟨mem_liveSlots.mp ((slots _).mpr source), mem_liveSlots.mp ((slots _).mpr dest)⟩
  have same : other.liveSlots = patch.liveSlots := liveSlots_pairwise.eq_of_mem_iff liveSlots_pairwise slots
  have placing : RenderOrder.place other.feeders other.liveSlots.length [] other.liveSlots =
      RenderOrder.place patch.feeders patch.liveSlots.length [] patch.liveSlots := by
    rw [same]
    apply RenderOrder.place_congr
    intro slot _ feeder
    rw [mem_feeders, mem_feeders, feeds]
  generalize answer : RenderOrder.place patch.feeders patch.liveSlots.length [] patch.liveSlots = result at placing
  rw [renderOrder_eq joined answer, renderOrder_eq joined' placing]

/-- The render order of a patch whose edges join nodes is the first of all its orders,
unless there is a cycle; then the lowest slot is named that lies on one or behind one.
Which edges there are beyond that, and how they came about, does not matter. -/
theorem renderOrder_canonical (joined : patch.Joined) :
    (patch.Acyclic → ∃ order, patch.renderOrder = .ok order ∧ IsLeast {order | patch.Ordered order} order) ∧
    (¬ patch.Acyclic → ∃ stuck, patch.renderOrder = .error stuck ∧
      IsLeast {slot | slot ∈ patch.liveSlots ∧ patch.OnOrBehindCycle ⟨slot⟩} stuck.index) ∧
    ∀ {μ : Type} (other : Patch μ), (∀ slot, slot ∈ other.liveSlots ↔ slot ∈ patch.liveSlots) →
      (∀ source dest, other.Feeds source dest ↔ patch.Feeds source dest) →
      other.renderOrder = patch.renderOrder := by
  refine ⟨?_, ?_, fun other => renderOrder_congr joined⟩
  · intro acyclic
    obtain ⟨order, found⟩ := (renderOrder_ok_iff joined).mpr acyclic
    exact ⟨order, found, renderOrder_least joined found⟩
  · intro cyclic
    cases answer : patch.renderOrder with
    | ok order => exact absurd ((renderOrder_ok_iff joined).mp ⟨order, answer⟩) cyclic
    | error stuck => exact ⟨stuck, rfl, renderOrder_stuck joined answer⟩

def gapped : Patch Constant where
  nodes := #[some ⟨1, 1⟩, none, some ⟨1, 1⟩, some ⟨1, 1⟩]
  edges := #[some ⟨⟨3⟩, 0, ⟨2⟩, 0, 1⟩, none, some ⟨⟨3⟩, 1, ⟨2⟩, 0, 1⟩]
  sink := none

def gappedLoop : Patch Constant := (gapped.connect ⟨⟨3⟩, 0, ⟨3⟩, 0, 1⟩).2

theorem gapped_canonical : IsLeast {order | gapped.Ordered order} [0, 3, 2] ∧
    IsLeast {slot | slot ∈ gappedLoop.liveSlots ∧ gappedLoop.OnOrBehindCycle ⟨slot⟩} 2 := by
  have joined : gapped.Joined := by decide +kernel
  have joined' : gappedLoop.Joined := by decide +kernel
  have answer : gapped.renderOrder = .ok [0, 3, 2] := by decide +kernel
  have answer' : gappedLoop.renderOrder = .error ⟨2⟩ := by decide +kernel
  have acyclic : gapped.Acyclic := (renderOrder_ok_iff joined).mp ⟨_, answer⟩
  have cyclic : ¬ gappedLoop.Acyclic := by
    intro free
    obtain ⟨order, found⟩ := (renderOrder_ok_iff joined').mpr free
    cases answer'.symm.trans found
  constructor
  · obtain ⟨order, found, least⟩ := (renderOrder_canonical joined).1 acyclic
    cases answer.symm.trans found
    exact least
  · obtain ⟨stuck, refused, least⟩ := (renderOrder_canonical joined').2.1 cyclic
    cases answer'.symm.trans refused
    exact least

end Patch

end Patchbay
