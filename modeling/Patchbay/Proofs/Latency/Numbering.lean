import Mathlib.Data.Set.Function
import Patchbay.Proofs.Latency.Solution

/-! How links are numbered.

A link's number is looked up in two tables, the consumers of each producer and the first
number of each producer's links. Tables that are made entry by entry, each in a pass of its
own, answer as the graph does: the numbers and the links correspond one to one, and an
alignment lays out its links in the order of their numbers.
-/

set_option autoImplicit false

namespace Patchbay

namespace LatencyGraph

/-! ## Numbers from tables -/

/-- The first number of each producer's links, if numbers run on from a given one. -/
def firsts (number : Nat) : List (List Nat) → List Nat
  | [] => []
  | consumers :: rest => number :: firsts (number + consumers.length) rest

def lookUp (producers : Array (List Nat)) (producer consumer : Nat) : Option Nat := do
  let consumers := entered producers
  let first ← (firsts 0 consumers.toList)[producer]?
  let rank ← (consumers[producer]?.getD []).idxOf? consumer
  return first + rank

theorem getElem?_firsts (number : Nat) (table : List (List Nat)) (producer : Nat) :
    (firsts number table)[producer]? = if producer < table.length then
      some (number + Count.total ((table.take producer).map List.length)) else none := by
  induction table generalizing number producer with
  | nil => rfl
  | cons consumers rest ih =>
    cases producer with
    | zero => simp [firsts, Count.total]
    | succ producer => simp [firsts, ih, Count.total, Nat.add_assoc]

/-! ## Numbers -/

variable {graph : LatencyGraph}

theorem Ordered.entered_eq (inOrder : graph.Ordered) : entered graph.producers = graph.consumers := by
  rw [LatencyGraph.entered_eq, inOrder.consumers]

theorem Ordered.lookUp_eq (inOrder : graph.Ordered) (producer consumer : Nat) :
    lookUp graph.producers producer consumer = graph.link producer consumer := by
  unfold lookUp link linkBase consumersOf
  rw [inOrder.entered_eq]
  simp only [getElem?_firsts, Array.length_toList, Nat.zero_add]
  by_cases inside : producer < graph.consumers.size
  · simp only [inside, if_true, Option.bind_eq_bind, Option.bind_some]
    exact Option.map_eq_bind.symm
  · simp [inside]

theorem Ordered.consumersOf_ascending (inOrder : graph.Ordered) (producer : Nat) :
    (graph.consumersOf producer).Pairwise (· < ·) := by
  by_cases inside : producer < graph.size
  · rw [inOrder.consumersOf_eq inside]
    exact List.pairwise_lt_range.filter _
  · rw [consumersOf, Array.getElem?_eq_none (by rw [inOrder.consumers_size]; omega)]
    exact .nil

theorem Ordered.linkCount_eq (inOrder : graph.Ordered) : graph.linkCount = graph.links.length := by
  rw [linkCount, Count.total_eq_sum, links, List.length_flatMap]
  congr 1
  refine List.ext_getElem (by simp [inOrder.consumers_size]) fun producer here there => ?_
  have inside : producer < graph.consumers.size := by simpa using here
  simp [consumersOf, inside]

/-- What a link's consumer still lacks if the producer waits for the earliest one. -/
def Lacks (graph : LatencyGraph) (alignment : Alignment) (link : Nat × Nat) (rest : Nat) : Prop :=
  ∃ earliest, IsLeast (alignment.arrivalAt '' {consumer | consumer ∈ graph.consumersOf link.1}) earliest ∧
    earliest + rest = alignment.arrivalAt link.2

theorem waits_lacks {alignment : Alignment} {intrinsic : Array Nat} {producer : Nat} {row : Nat × List Nat}
    (answer : graph.waits alignment.arrival intrinsic producer = .ok row) :
    List.Forall₂ (graph.Lacks alignment) ((graph.consumersOf producer).map (producer, ·)) row.2 := by
  rcases waits_cases answer with ⟨idle, _, none⟩ | ⟨earliest, attained, least, _, rests⟩
  · rw [idle, none]
    exact .nil
  · rw [rests, List.forall₂_map_left_iff, List.forall₂_map_right_iff, List.forall₂_same]
    intro consumer member
    have late := least consumer member
    obtain ⟨first, among, same⟩ := List.mem_map.mp attained
    refine ⟨earliest, ⟨⟨first, among, same⟩, ?_⟩, Nat.add_sub_cancel' late⟩
    rintro _ ⟨other, fed, rfl⟩
    exact least other fed

theorem align_lacks {alignment : Alignment} {intrinsic : Array Nat} (answer : graph.align intrinsic = .ok alignment) :
    List.Forall₂ (graph.Lacks alignment) graph.links alignment.links.toList := by
  simp only [align, bind_eq_ok, mapM_eq_ok, pure_eq_ok] at answer
  obtain ⟨arrival, arrived, rows, waited, rfl⟩ := answer
  exact List.rel_flatMap waited fun producer row waits => waits_lacks waits

def fed (graph : LatencyGraph) : Set (Nat × Nat) := {link | link.1 ∈ graph.producersOf link.2}

/-- The tables of a graph agree on its links. -/
structure Numbered (graph : LatencyGraph) : Prop where
  /-- Each consumer of a position is listed once. -/
  consumers : ∀ producer, (graph.consumersOf producer).Pairwise (· < ·) ∧
    ∀ consumer, consumer ∈ graph.consumersOf producer ↔ producer ∈ graph.producersOf consumer
  entries : entered graph.producers = graph.consumers
  tables : ∀ producer consumer, lookUp graph.producers producer consumer = graph.link producer consumer
  /-- Links and the numbers below their count correspond one to one. -/
  bijective : Set.BijOn (Function.uncurry graph.link) graph.fed (some '' Set.Iio graph.linkCount)
  unlinked : ∀ {producer consumer}, producer ∉ graph.producersOf consumer → graph.link producer consumer = none
  listed : ∀ {producer consumer number}, graph.links[number]? = some (producer, consumer) ↔
    graph.link producer consumer = some number
  /-- Alignment fails only where the latencies along a path add up to no count. -/
  aligns : ∀ intrinsic : Array Nat, graph.size ≤ intrinsic.size →
    ((∃ alignment, graph.align intrinsic = .ok alignment) ↔ graph.Addable (intrinsic.getD · 0))
  /-- An alignment has one delay for each link, in the order of the links' numbers. -/
  laidOut : ∀ {intrinsic alignment}, graph.align intrinsic = .ok alignment →
    List.Forall₂ (graph.Lacks alignment) graph.links alignment.links.toList

namespace Ordered

variable (inOrder : graph.Ordered)
include inOrder

theorem getElem?_links_iff {producer consumer number : Nat} :
    graph.links[number]? = some (producer, consumer) ↔ graph.link producer consumer = some number :=
  ⟨inOrder.link_of_getElem?_links, inOrder.getElem?_links⟩

theorem link_bijOn : Set.BijOn (Function.uncurry graph.link) graph.fed (some '' Set.Iio graph.linkCount) := by
  refine ⟨?_, ?_, ?_⟩
  · rintro ⟨producer, consumer⟩ feeds
    obtain ⟨number, linked⟩ := inOrder.exists_link (inOrder.mem_consumersOf.mpr feeds)
    refine ⟨number, ?_, linked.symm⟩
    rw [Set.mem_Iio, inOrder.linkCount_eq]
    exact (List.getElem?_eq_some_iff.mp (inOrder.getElem?_links linked)).1
  · rintro ⟨producer, consumer⟩ feeds ⟨producer', consumer'⟩ _ same
    obtain ⟨number, linked⟩ := inOrder.exists_link (inOrder.mem_consumersOf.mpr feeds)
    have here := inOrder.getElem?_links linked
    rw [inOrder.getElem?_links (same.symm.trans linked)] at here
    exact (Option.some.inj here).symm
  · rintro _ ⟨number, inside, rfl⟩
    rw [Set.mem_Iio, inOrder.linkCount_eq] at inside
    have linked := inOrder.link_of_getElem?_links (List.getElem?_eq_getElem inside)
    exact ⟨graph.links[number], inOrder.mem_consumersOf.mp (inOrder.mem_of_link linked), linked⟩

theorem link_eq_none {producer consumer : Nat} (unfed : producer ∉ graph.producersOf consumer) :
    graph.link producer consumer = none := by
  cases linked : graph.link producer consumer with
  | none => rfl
  | some number => exact absurd (inOrder.mem_consumersOf.mp (inOrder.mem_of_link linked)) unfed

end Ordered

/-- Producer lists in which producers precede their consumers make up a graph whose links
are numbered one to one, in the order in which they are aligned. -/
theorem links_numbered {producers : Array (List Nat)}
    (precedes : ∀ (position : Nat) sources, producers[position]? = some sources →
      ∀ source ∈ sources, source < position) :
    ∃ graph, ofProducers producers = .ok graph ∧ graph.producers = producers ∧ graph.Numbered := by
  obtain ⟨graph, built⟩ := ofProducers_ok precedes
  obtain ⟨same, inOrder⟩ := ofProducers_eq_ok built
  exact ⟨graph, built, same, {
    consumers := fun producer => ⟨inOrder.consumersOf_ascending producer, fun _ => inOrder.mem_consumersOf⟩
    entries := inOrder.entered_eq
    tables := inOrder.lookUp_eq
    bijective := inOrder.link_bijOn
    unlinked := inOrder.link_eq_none
    listed := inOrder.getElem?_links_iff
    aligns := fun _ sizes => align_answers_iff inOrder sizes
    laidOut := align_lacks }⟩

def braid : LatencyGraph := ⟨#[[], [0, 0], [1, 0], [0, 2, 0]], #[[1, 2, 3], [2], [3], []]⟩

theorem braid_numbered : ∃ graph, ofProducers braid.producers = .ok graph ∧ graph.Numbered ∧
    graph.linkCount = 5 ∧ graph.link 0 3 = some 2 ∧ graph.link 1 3 = none ∧ graph.link 9 0 = none := by
  have precedes : ordered braid.producers = true := by decide
  obtain ⟨graph, built, _, numbered⟩ := links_numbered (ordered_eq_true.mp precedes)
  obtain ⟨_, again, rfl⟩ : ∃ graph, ofProducers braid.producers = .ok graph ∧ graph = braid := by decide +kernel
  rw [again] at built
  cases built
  exact ⟨braid, again, numbered, by decide, by decide, by decide, by decide⟩

end LatencyGraph

end Patchbay
