import Mathlib.Data.Finite.Defs
import Mathlib.Data.List.Cycle
import Mathlib.Data.Set.Finite.List
import Mathlib.Logic.Relation
import Mathlib.Order.WellFounded

/-! Cycles of a relation, and what lies behind them.

What lies on a cycle or behind one is fed by something that does so too, and that is
all there is to it among finitely many items. Cycles may come by an item twice and may
be as short as an item that feeds itself; those that join several items, each of them
once, are loops.
-/

set_option autoImplicit false

namespace Patchbay

open Relation

variable {α : Type} {feeds : α → α → Prop} {item : α}

/-- An item on a cycle, or one that a cycle leads to. -/
def OnOrBehind (feeds : α → α → Prop) (item : α) : Prop :=
  ∃ origin, TransGen feeds origin origin ∧ ReflTransGen feeds origin item

theorem OnOrBehind.fed (behind : OnOrBehind feeds item) : ∃ source, feeds source item ∧ OnOrBehind feeds source := by
  obtain ⟨origin, cycle, leads⟩ := behind
  obtain ⟨source, sooner, last⟩ := TransGen.tail'_iff.mp (cycle.trans_left leads)
  exact ⟨source, last, origin, cycle, sooner⟩

/-- Among finitely many items each of which is fed by another one of them, a cycle
leads to every one. -/
theorem onOrBehind_of_fed {stuck : List α} (fed : ∀ item ∈ stuck, ∃ source ∈ stuck, feeds source item)
    (member : item ∈ stuck) : OnOrBehind feeds item := by
  -- Without a cycle behind `item`, being upstream orders the stuck items behind it
  -- well, and the first of them would be fed by an earlier one.
  by_contra free
  let upstream : Set α := {source | source ∈ stuck ∧ ReflTransGen feeds source item}
  have : Finite upstream := (stuck.finite_toSet.subset fun _ inside => inside.1).to_subtype
  let before : upstream → upstream → Prop := fun first second => TransGen feeds first second
  have transitive : IsTrans upstream before := ⟨fun _ _ _ => TransGen.trans⟩
  have irreflexive : Std.Irrefl before := ⟨fun source cycle => free ⟨source, cycle, source.2.2⟩⟩
  have founded := Finite.wellFounded_of_trans_of_irrefl before
  obtain ⟨first, _, least⟩ := founded.has_min Set.univ ⟨⟨item, member, .refl⟩, trivial⟩
  obtain ⟨source, inside, feeds⟩ := fed first.1 first.2.1
  exact least ⟨source, inside, .head feeds first.2.2⟩ trivial (.single feeds)

/-! ## Loops -/

/-- Several items, each of them once, of which each feeds the next and the last the
first. -/
structure IsLoop (feeds : α → α → Prop) (loop : Cycle α) : Prop where
  nodup : loop.Nodup
  nontrivial : loop.Nontrivial
  chain : loop.Chain feeds

def OnOrBehindLoop (feeds : α → α → Prop) (item : α) : Prop :=
  ∃ loop, IsLoop feeds loop ∧ ∃ origin ∈ loop, ReflTransGen feeds origin item

/-- One item feeds another one. -/
def Apart (feeds : α → α → Prop) (source dest : α) : Prop := source ≠ dest ∧ feeds source dest

/-- What an item leads to, it leads to without any item that feeds itself on the way. -/
theorem reflTransGen_apart {source dest : α} :
    ReflTransGen (Apart feeds) source dest ↔ ReflTransGen feeds source dest := by
  constructor
  · intro leads
    exact ReflTransGen.mono (fun _ _ step => step.2) _ _ leads
  · intro leads
    induction leads with
    | refl => exact .refl
    | @tail middle last _ step ih =>
      by_cases same : middle = last
      · exact same ▸ ih
      · exact ih.tail ⟨same, step⟩

theorem exists_nodup_chain {source dest : α} (leads : ReflTransGen feeds source dest) :
    ∃ items, (source :: items).IsChain feeds ∧ (source :: items).Nodup ∧ (source :: items).getLast? = some dest := by
  induction leads using ReflTransGen.head_induction_on with
  | refl => exact ⟨[], .singleton _, List.nodup_singleton _, rfl⟩
  | @head first next step _ ih =>
    obtain ⟨items, chain, nodup, last⟩ := ih
    by_cases again : first ∈ next :: items
    · -- The way back to where it began is left out.
      obtain ⟨before, after, split⟩ := List.append_of_mem again
      rw [split] at chain nodup last
      refine ⟨after, chain.right_of_append, (List.nodup_append.mp nodup).2.1, ?_⟩
      rwa [List.getLast?_append_cons] at last
    · exact ⟨next :: items, chain.cons_cons step, List.nodup_cons.mpr ⟨again, nodup⟩, by rwa [List.getLast?_cons_cons]⟩

theorem IsLoop.apart {loop : Cycle α} (isLoop : IsLoop feeds loop) (member : item ∈ loop) :
    TransGen (Apart feeds) item item := by
  -- The loop leads to another of its items and back.
  have joined := Cycle.chain_iff_pairwise.mp (isLoop.chain.imp fun _ _ => TransGen.single)
  obtain ⟨other, inside, different⟩ : ∃ other ∈ loop, other ≠ item := by
    obtain ⟨first, second, different, here, there⟩ := isLoop.nontrivial
    by_cases same : first = item
    · exact ⟨second, there, same ▸ different.symm⟩
    · exact ⟨first, here, same⟩
  have out := reflTransGen_apart.mpr (joined item member other inside).to_reflTransGen
  have back := reflTransGen_apart.mpr (joined other inside item member).to_reflTransGen
  exact ((reflTransGen_iff_eq_or_transGen.mp out).resolve_left different).trans_left back

theorem exists_loop (cycle : TransGen (Apart feeds) item item) : ∃ loop, IsLoop feeds loop ∧ item ∈ loop := by
  obtain ⟨next, step, leads⟩ := TransGen.head'_iff.mp cycle
  obtain ⟨items, chain, nodup, last⟩ := exists_nodup_chain leads
  have member : item ∈ next :: items := List.mem_of_getLast? last
  refine ⟨(next :: items : List α), ⟨nodup, ⟨item, next, step.1, member, List.mem_cons_self⟩, ?_⟩, member⟩
  -- The chain ends in the item, which feeds what the chain began with.
  rw [Cycle.chain_coe_cons, ← List.cons_append]
  apply (chain.imp fun _ _ => And.right).append (.singleton next)
  simpa [last] using step.2

theorem onOrBehindLoop_iff : OnOrBehindLoop feeds item ↔ OnOrBehind (Apart feeds) item := by
  constructor
  · rintro ⟨loop, isLoop, origin, member, leads⟩
    exact ⟨origin, isLoop.apart member, reflTransGen_apart.mpr leads⟩
  · rintro ⟨origin, cycle, leads⟩
    obtain ⟨loop, isLoop, member⟩ := exists_loop cycle
    exact ⟨loop, isLoop, origin, member, reflTransGen_apart.mp leads⟩

end Patchbay
