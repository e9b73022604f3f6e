import Mathlib.Algebra.BigOperators.Group.List.Basic
import Mathlib.Data.List.Nodup
import Patchbay.Proofs.Checked
import Patchbay.Latency.Graph

/-! Links and their numbers.

A well-ordered graph knows its consumers exactly, and a table that is laid out
producer after producer holds the entry of a link at the link's number.
-/

set_option autoImplicit false

namespace Patchbay

theorem Count.total_eq_sum (counts : List Nat) : Count.total counts = counts.sum := by
  induction counts with
  | nil => rfl
  | cons count rest ih => rw [Count.total, ih, List.sum_cons]

namespace LatencyGraph

/-! ## Consumers -/

def fedBelow (producers : Array (List Nat)) (bound producer : Nat) : List Nat :=
  (List.range bound).filter fun position => (producers[position]?.getD []).contains producer

def fedBy (producers : Array (List Nat)) : Nat → List Nat := fedBelow producers producers.size

/-- The consumers below a position are entered, and that position itself under some producers. -/
structure Entered (producers : Array (List Nat)) (consumer : Nat) (done : List Nat)
    (table : Array (List Nat)) : Prop where
  size : table.size = producers.size
  row : ∀ producer < producers.size, table[producer]? =
    some (fedBelow producers consumer producer ++ if producer ∈ done then [consumer] else [])

section Entered

variable {producers table : Array (List Nat)} {consumer : Nat} {done : List Nat}

theorem Entered.enter (entered : Entered producers consumer done table) (source : Nat) :
    Entered producers consumer (done ++ [source]) (enter consumer table source) := by
  refine ⟨by rw [LatencyGraph.enter, Array.size_modify, entered.size], fun producer inside => ?_⟩
  rw [LatencyGraph.enter, Array.getElem?_modify, entered.row producer inside]
  -- Only positions below the consumer are there, so it is new but where it was entered itself.
  have fresh : consumer ∉ fedBelow producers consumer producer := by simp [fedBelow]
  by_cases same : source = producer
  · subst same
    by_cases known : source ∈ done
    · simp [known]
    · simp [known, fresh]
  · simp [same, Ne.symm same]

theorem Entered.enterUnder (entered : Entered producers consumer done table) (sources : List Nat) :
    Entered producers consumer (done ++ sources) (sources.foldl (LatencyGraph.enter consumer) table) := by
  induction sources generalizing done table with
  | nil => rwa [List.append_nil]
  | cons source rest ih =>
    rw [List.append_cons]
    exact ih (entered.enter source)

theorem Entered.next {sources : List Nat} (found : producers[consumer]? = some sources)
    (entered : Entered producers consumer sources table) : Entered producers (consumer + 1) [] table := by
  refine ⟨entered.size, fun producer inside => ?_⟩
  rw [entered.row producer inside, fedBelow, fedBelow, List.range_succ, List.filter_append, List.filter_singleton]
  simp [found]

theorem Entered.pass {rest : List (List Nat)}
    (remaining : ∀ rank sources, rest[rank]? = some sources → producers[consumer + rank]? = some sources)
    (entered : Entered producers consumer [] table) :
    Entered producers (consumer + rest.length) [] ((rest.zipIdx consumer).foldl LatencyGraph.enterUnder table) := by
  induction rest generalizing consumer table with
  | nil => exact entered
  | cons sources rest ih =>
    rw [List.zipIdx_cons, List.foldl_cons, List.length_cons, Nat.add_comm rest.length, ← Nat.add_assoc]
    refine ih (fun rank later found => ?_) ((entered.enterUnder sources).next (remaining 0 sources rfl))
    rw [Nat.add_assoc, Nat.add_comm 1]
    exact remaining (rank + 1) later (by simpa using found)

/-- The pass through the producer lists enters each consumer once. -/
theorem entered_eq (producers : Array (List Nat)) :
    entered producers = (Array.range producers.size).map (fedBy producers) := by
  have start : Entered producers 0 [] (Array.replicate producers.size []) :=
    ⟨Array.size_replicate, fun producer inside => by simp [inside, fedBelow]⟩
  have whole : Entered producers (0 + producers.toList.length) [] (entered producers) :=
    start.pass fun rank sources found => by simpa using found
  rw [Array.length_toList, Nat.zero_add] at whole
  refine Array.ext_getElem? fun producer => ?_
  by_cases inside : producer < producers.size
  · rw [whole.row producer inside]
    simp [inside, fedBy]
  · rw [Array.getElem?_eq_none (by rw [whole.size]; omega)]
    simp [Nat.le_of_not_lt inside]

end Entered

/-! ## Graphs in order -/

/-- Producers stand before their consumers, and the consumers are those of the
producer lists. -/
structure Ordered (graph : LatencyGraph) : Prop where
  consumers : graph.consumers = (Array.range graph.producers.size).map (fedBy graph.producers)
  precedes : ∀ {position producer}, producer ∈ graph.producersOf position → producer < position

theorem ordered_eq_true {producers : Array (List Nat)} :
    ordered producers = true ↔
      ∀ (position : Nat) sources, producers[position]? = some sources →
        ∀ source ∈ sources, source < position := by
  simp only [ordered, List.all_eq_true, decide_eq_true_eq, Prod.forall,
    List.mk_mem_zipIdx_iff_getElem?, Array.getElem?_toList]
  exact ⟨fun all position sources found => all sources position found,
    fun all sources position found => all position sources found⟩

theorem ofProducers_eq_ok {producers : Array (List Nat)} {graph : LatencyGraph}
    (built : ofProducers producers = .ok graph) : graph.producers = producers ∧ graph.Ordered := by
  unfold ofProducers at built
  split at built
  · rename_i inOrder
    cases built
    refine ⟨rfl, entered_eq producers, ?_⟩
    intro position producer member
    unfold producersOf at member
    cases found : producers[position]? with
    | none => simp [found] at member
    | some sources =>
      simp only [found, Option.getD_some] at member
      exact ordered_eq_true.mp inOrder position sources found producer member
  · cases built

theorem ofProducers_ok {producers : Array (List Nat)}
    (precedes : ∀ (position : Nat) sources, producers[position]? = some sources →
      ∀ source ∈ sources, source < position) :
    ∃ graph, ofProducers producers = .ok graph := by
  unfold ofProducers
  rw [if_pos (ordered_eq_true.mpr precedes)]
  exact ⟨_, rfl⟩

theorem lt_size_of_mem_producersOf {graph : LatencyGraph} {position producer : Nat}
    (member : producer ∈ graph.producersOf position) : position < graph.size := by
  by_contra outside
  have absent : graph.producers[position]? = none := by simpa [size] using outside
  simp [producersOf, absent] at member

section Ordered

variable {graph : LatencyGraph} (inOrder : graph.Ordered)
include inOrder

theorem Ordered.consumers_size : graph.consumers.size = graph.size := by
  rw [inOrder.consumers, Array.size_map, Array.size_range, size]

theorem Ordered.consumersOf_eq {producer : Nat} (inside : producer < graph.size) :
    graph.consumersOf producer = fedBy graph.producers producer := by
  unfold size at inside
  simp [consumersOf, inOrder.consumers, inside]

theorem Ordered.mem_consumersOf {producer consumer : Nat} :
    consumer ∈ graph.consumersOf producer ↔ producer ∈ graph.producersOf consumer := by
  by_cases inside : producer < graph.size
  · rw [inOrder.consumersOf_eq inside]
    simp only [fedBy, fedBelow, List.mem_filter, List.mem_range, List.contains_eq_mem, decide_eq_true_eq]
    exact ⟨fun found => found.2, fun found => ⟨lt_size_of_mem_producersOf found, found⟩⟩
  · have absent : graph.consumers[producer]? = none := by
      simpa [inOrder.consumers_size] using inside
    constructor
    · intro member
      simp [consumersOf, absent] at member
    · intro member
      have before := inOrder.precedes member
      have bound := lt_size_of_mem_producersOf member
      omega

theorem Ordered.consumersOf_nodup (producer : Nat) : (graph.consumersOf producer).Nodup := by
  by_cases inside : producer < graph.size
  · rw [inOrder.consumersOf_eq inside]
    exact List.nodup_range.filter _
  · have absent : graph.consumers[producer]? = none := by
      simpa [inOrder.consumers_size] using inside
    simp [consumersOf, absent]

theorem Ordered.lt_size_of_mem_consumersOf {producer consumer : Nat}
    (member : consumer ∈ graph.consumersOf producer) : producer < graph.size ∧ consumer < graph.size := by
  have fed := inOrder.mem_consumersOf.mp member
  have before := inOrder.precedes fed
  have bound := lt_size_of_mem_producersOf fed
  omega

/-- The number of a link counts the links of earlier producers and the earlier
consumers of its own. -/
theorem Ordered.link_eq_some {producer consumer link : Nat} :
    graph.link producer consumer = some link ↔
      ∃ rank, (graph.consumersOf producer)[rank]? = some consumer ∧
        link = graph.linkBase producer + rank := by
  have unique := inOrder.consumersOf_nodup producer
  simp only [LatencyGraph.link, Option.map_eq_some_iff, List.idxOf?_eq_some_iff]
  constructor
  · rintro ⟨rank, ⟨bound, found, _⟩, rfl⟩
    exact ⟨rank, by rw [List.getElem?_eq_getElem bound, found], rfl⟩
  · rintro ⟨rank, found, rfl⟩
    obtain ⟨bound, same⟩ := List.getElem?_eq_some_iff.mp found
    refine ⟨rank, ⟨bound, same, ?_⟩, rfl⟩
    intro other earlier again
    have := (List.Nodup.getElem_inj_iff unique).mp (again.trans same.symm)
    omega

theorem Ordered.exists_link {producer consumer : Nat}
    (member : consumer ∈ graph.consumersOf producer) : ∃ link, graph.link producer consumer = some link := by
  obtain ⟨rank, found⟩ := List.mem_iff_getElem?.mp member
  exact ⟨_, inOrder.link_eq_some.mpr ⟨rank, found, rfl⟩⟩

theorem Ordered.mem_of_link {producer consumer link : Nat}
    (found : graph.link producer consumer = some link) : consumer ∈ graph.consumersOf producer := by
  obtain ⟨rank, item, _⟩ := inOrder.link_eq_some.mp found
  exact List.mem_of_getElem? item

/-- A table with one row per producer and one entry per consumer holds the entry
of a link at the link's number. -/
theorem Ordered.getElem?_flatMap {α : Type} {row : Nat → List α}
    (lengths : ∀ producer < graph.size, (row producer).length = (graph.consumersOf producer).length)
    {producer consumer link rank : Nat} (found : graph.link producer consumer = some link)
    (item : (graph.consumersOf producer)[rank]? = some consumer) :
    ((List.range graph.size).flatMap row)[link]? = (row producer)[rank]? := by
  obtain ⟨rank', item', rfl⟩ := inOrder.link_eq_some.mp found
  have inside := (inOrder.lt_size_of_mem_consumersOf (List.mem_of_getElem? item)).1
  obtain ⟨bound, same⟩ := List.getElem?_eq_some_iff.mp item
  obtain ⟨bound', same'⟩ := List.getElem?_eq_some_iff.mp item'
  have ranks : rank = rank' :=
    (List.Nodup.getElem_inj_iff (inOrder.consumersOf_nodup producer)).mp (same.trans same'.symm)
  subst ranks
  -- The base of the producer counts the consumers of all producers before it, which is the length of their
  -- rows.
  have base : graph.linkBase producer =
      ((((List.range graph.size).map row).map List.length).take producer).sum := by
    rw [linkBase, Count.total_eq_sum, List.map_take]
    congr 2
    apply List.ext_getElem
    · simp [inOrder.consumers_size]
    · intro position here there
      have inTable : position < graph.size := by simpa using there
      have inConsumers : position < graph.consumers.size := by simpa using here
      simp only [List.getElem_map, List.getElem_range, Array.getElem_toList, lengths position inTable]
      simp [consumersOf, inConsumers]
  have inRow : rank < (row producer).length := by rw [lengths producer inside]; exact bound
  rw [List.flatMap_def, base, ← List.getElem?_drop, List.drop_sum_flatten,
    List.drop_eq_getElem_cons (by simpa using inside), List.flatten_cons, List.getElem?_append_left]
  · simp
  · simpa using inRow

theorem Ordered.getElem?_links {producer consumer link : Nat}
    (found : graph.link producer consumer = some link) :
    graph.links[link]? = some (producer, consumer) := by
  obtain ⟨rank, item, _⟩ := inOrder.link_eq_some.mp found
  unfold links
  rw [inOrder.getElem?_flatMap (by simp) found item, List.getElem?_map, item]
  rfl

theorem Ordered.mem_links {producer consumer : Nat} :
    (producer, consumer) ∈ graph.links ↔ consumer ∈ graph.consumersOf producer := by
  simp only [links, List.mem_flatMap, List.mem_range, List.mem_map, Prod.mk.injEq]
  constructor
  · rintro ⟨_, _, _, member, rfl, rfl⟩
    exact member
  · exact fun member => ⟨producer, (inOrder.lt_size_of_mem_consumersOf member).1, consumer, member, rfl, rfl⟩

theorem Ordered.links_nodup : graph.links.Nodup := by
  rw [links, List.nodup_flatMap]
  refine ⟨fun producer _ => (inOrder.consumersOf_nodup producer).map fun _ _ same => congrArg Prod.snd same, ?_⟩
  refine List.nodup_range.imp fun differ entry here there => differ ?_
  obtain ⟨_, _, rfl⟩ := List.mem_map.mp here
  obtain ⟨_, _, same⟩ := List.mem_map.mp there
  exact (congrArg Prod.fst same).symm

theorem Ordered.link_of_getElem?_links {producer consumer link : Nat}
    (found : graph.links[link]? = some (producer, consumer)) : graph.link producer consumer = some link := by
  obtain ⟨number, numbered⟩ := inOrder.exists_link (inOrder.mem_links.mp (List.mem_of_getElem? found))
  obtain ⟨inside, here⟩ := List.getElem?_eq_some_iff.mp found
  obtain ⟨within, there⟩ := List.getElem?_eq_some_iff.mp (inOrder.getElem?_links numbered)
  rw [numbered, (List.Nodup.getElem_inj_iff inOrder.links_nodup).mp (there.trans here.symm)]

end Ordered

end LatencyGraph

end Patchbay
