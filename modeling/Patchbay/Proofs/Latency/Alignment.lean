import Mathlib.Order.Bounds.Basic
import Patchbay.Proofs.Latency.Links
import Patchbay.Latency.Alignment

/-! What alignment answers.

The arrival at a position is the greatest latency that any path into it adds up.
Along every link the arrival at the producer, its latency, its wait and the
link's rest make up the arrival at the consumer, and some link of each producer
has nothing left. Alignment answers whenever the sums along paths are counts.
-/

set_option autoImplicit false

namespace Patchbay

namespace LatencyGraph

/-- A path into a position whose nodes, up to the position, add up to a total. -/
inductive Accumulates (graph : LatencyGraph) (latency : Nat → Nat) : Nat → Nat → Prop where
  | start (position : Nat) : Accumulates graph latency position 0
  | step {position producer total : Nat} : producer ∈ graph.producersOf position →
      Accumulates graph latency producer total →
      Accumulates graph latency position (total + latency producer)

/-- The longest accumulated latency at a position. -/
def IsArrival (graph : LatencyGraph) (latency : Nat → Nat) (position arrival : Nat) : Prop :=
  IsGreatest {total | graph.Accumulates latency position total} arrival

section Paths

variable {graph : LatencyGraph} {latency other : Nat → Nat} {position arrival : Nat}

theorem IsArrival.unique {again : Nat} (first : graph.IsArrival latency position arrival)
    (second : graph.IsArrival latency position again) : arrival = again :=
  IsGreatest.unique first second

theorem Accumulates.mono {total : Nat} (below : ∀ position, latency position ≤ other position)
    (path : graph.Accumulates latency position total) :
    ∃ greater, total ≤ greater ∧ graph.Accumulates other position greater := by
  induction path with
  | start position => exact ⟨0, le_refl 0, .start position⟩
  | @step position producer total member _ ih =>
    obtain ⟨greater, bound, path⟩ := ih
    exact ⟨greater + other producer, Nat.add_le_add bound (below producer), .step member path⟩

theorem IsArrival.mono {later : Nat} (below : ∀ position, latency position ≤ other position)
    (first : graph.IsArrival latency position arrival) (second : graph.IsArrival other position later) :
    arrival ≤ later := by
  obtain ⟨greater, bound, path⟩ := first.1.mono below
  exact le_trans bound (second.2 path)

/-- A producer's arrival and latency are part of its consumer's arrival. -/
theorem IsArrival.step_le {producer earlier : Nat} (before : graph.IsArrival latency producer earlier)
    (member : producer ∈ graph.producersOf position) (here : graph.IsArrival latency position arrival) :
    earlier + latency producer ≤ arrival :=
  here.2 (Accumulates.step member before.1)

theorem isArrival_of_deliveries (arrivalAt : Nat → Nat)
    (before : ∀ producer ∈ graph.producersOf position,
      graph.IsArrival latency producer (arrivalAt producer))
    (bound : ∀ producer ∈ graph.producersOf position, arrivalAt producer + latency producer ≤ arrival)
    (attained : arrival = 0 ∨ ∃ producer ∈ graph.producersOf position,
      arrival = arrivalAt producer + latency producer) :
    graph.IsArrival latency position arrival := by
  constructor
  · rcases attained with zero | ⟨producer, member, same⟩
    · rw [zero]
      exact Accumulates.start position
    · rw [same]
      exact Accumulates.step member (before producer member).1
  · rintro total path
    cases path with
    | start => exact Nat.zero_le arrival
    | step member path =>
      have earlier := (before _ member).2 path
      have late := bound _ member
      omega

end Paths

/-! ## Arrivals -/

theorem latestDelivery_bounds {arrival intrinsic : Array Nat} {sources : List Nat} {latest : Nat}
    (answer : latestDelivery arrival intrinsic sources = .ok latest) :
    (∀ source ∈ sources, source < arrival.size ∧
      arrival.getD source 0 + intrinsic.getD source 0 ≤ latest) ∧
    (latest = 0 ∨ ∃ source ∈ sources, latest = arrival.getD source 0 + intrinsic.getD source 0) := by
  induction sources generalizing latest with
  | nil =>
    cases answer
    exact ⟨by simp, .inl rfl⟩
  | cons source rest ih =>
    simp only [latestDelivery, bind_eq_ok, itemAt_eq_ok, Count.add_eq_ok, pure_eq_ok] at answer
    obtain ⟨reached, atArrival, own, atIntrinsic, _, ⟨_, rfl⟩, others, later, rfl⟩ := answer
    obtain ⟨bounds, attained⟩ := ih later
    have inside := (Array.getElem?_eq_some_iff.mp atArrival).1
    have same : arrival.getD source 0 + intrinsic.getD source 0 = reached + own := by
      simp [Array.getD_eq_getD_getElem?, atArrival, atIntrinsic]
    constructor
    · intro other member
      rcases List.mem_cons.mp member with rfl | member
      · exact ⟨inside, by omega⟩
      · have := bounds other member
        exact ⟨this.1, by omega⟩
    · -- The later one of this delivery and of the latest of the rest is attained.
      rcases Nat.le_total others (reached + own) with smaller | greater
      · exact .inr ⟨source, List.mem_cons_self, by omega⟩
      · rcases attained with zero | ⟨other, member, equal⟩
        · exact .inr ⟨source, List.mem_cons_self, by omega⟩
        · exact .inr ⟨other, List.mem_cons_of_mem _ member, by omega⟩

theorem latestDelivery_ok {arrival intrinsic : Array Nat} {sources : List Nat}
    (present : ∀ source ∈ sources, source < arrival.size ∧ source < intrinsic.size ∧
      arrival.getD source 0 + intrinsic.getD source 0 < Count.limit) :
    ∃ latest, latestDelivery arrival intrinsic sources = .ok latest := by
  induction sources with
  | nil => exact ⟨0, rfl⟩
  | cons source rest ih =>
    obtain ⟨inArrival, inIntrinsic, fits⟩ := present source List.mem_cons_self
    obtain ⟨others, later⟩ := ih fun other member => present other (List.mem_cons_of_mem _ member)
    simp only [Array.getD_eq_getD_getElem?, Array.getElem?_eq_getElem inArrival,
      Array.getElem?_eq_getElem inIntrinsic, Option.getD_some] at fits
    simp [latestDelivery, bind_eq_ok, Count.add_eq_ok, inArrival, inIntrinsic, fits, later]

section Arrivals

variable {graph : LatencyGraph} {intrinsic : Array Nat}

def ArrivalsSoFar (graph : LatencyGraph) (intrinsic arrival : Array Nat) : Prop :=
  ∀ position < arrival.size,
    graph.IsArrival (intrinsic.getD · 0) position (arrival.getD position 0)

theorem ArrivalsSoFar.push {arrival : Array Nat} {latest : Nat}
    (soFar : graph.ArrivalsSoFar intrinsic arrival)
    (answer : latestDelivery arrival intrinsic (graph.producersOf arrival.size) = .ok latest) :
    graph.ArrivalsSoFar intrinsic (arrival.push latest) := by
  obtain ⟨bounds, attained⟩ := latestDelivery_bounds answer
  intro position inside
  rw [Array.size_push] at inside
  by_cases earlier : position < arrival.size
  · have same : (arrival.push latest).getD position 0 = arrival.getD position 0 := by
      simp [Array.getD_eq_getD_getElem?, Array.getElem?_push, Nat.ne_of_lt earlier]
    rw [same]
    exact soFar position earlier
  · have last : position = arrival.size := by omega
    subst last
    have same : (arrival.push latest).getD arrival.size 0 = latest := by
      simp [Array.getD_eq_getD_getElem?]
    rw [same]
    exact isArrival_of_deliveries (arrival.getD · 0)
      (fun producer member => soFar producer (bounds producer member).1)
      (fun producer member => (bounds producer member).2) attained

theorem arrivals_from {rest : List (List Nat)} {soFar result : Array Nat}
    (remaining : ∀ rank sources, rest[rank]? = some sources →
      graph.producersOf (soFar.size + rank) = sources)
    (start : graph.ArrivalsSoFar intrinsic soFar)
    (answer : rest.foldlM (fun arrival sources => do
      return arrival.push (← latestDelivery arrival intrinsic sources)) soFar = .ok result) :
    result.size = soFar.size + rest.length ∧ graph.ArrivalsSoFar intrinsic result := by
  induction rest generalizing soFar with
  | nil =>
    cases answer
    exact ⟨rfl, start⟩
  | cons sources rest ih =>
    simp only [List.foldlM_cons, bind_eq_ok, pure_eq_ok] at answer
    obtain ⟨_, ⟨latest, delivery, rfl⟩, later⟩ := answer
    have own : graph.producersOf soFar.size = sources := remaining 0 sources rfl
    have next := start.push (own ▸ delivery)
    obtain ⟨size, arrivals⟩ := ih (fun rank sources found => by
      have := remaining (rank + 1) sources (by simpa using found)
      simpa [Nat.add_assoc, Nat.add_comm 1 rank] using this) next later
    refine ⟨?_, arrivals⟩
    rw [size, Array.size_push, List.length_cons]
    omega

theorem arrivals_eq_foldlM (graph : LatencyGraph) (intrinsic : Array Nat) :
    graph.arrivals intrinsic = graph.producers.toList.foldlM (fun arrival sources => do
      return arrival.push (← latestDelivery arrival intrinsic sources)) #[] := by
  rw [arrivals, ← Array.foldlM_toList]

theorem producersOf_eq_getElem {position : Nat} {sources : List Nat}
    (found : graph.producers[position]? = some sources) : graph.producersOf position = sources := by
  simp [producersOf, found]

theorem arrivals_isArrival {arrival : Array Nat} (answer : graph.arrivals intrinsic = .ok arrival) :
    arrival.size = graph.size ∧ graph.ArrivalsSoFar intrinsic arrival := by
  rw [arrivals_eq_foldlM] at answer
  have := arrivals_from (fun rank sources found => producersOf_eq_getElem (by simpa using found))
    (fun position inside => absurd inside (by simp)) answer
  simpa [size] using this

/-- As long as the sums along paths are counts, no step of the fold fails. -/
theorem arrivals_ok_from (inOrder : graph.Ordered) (sizes : graph.size ≤ intrinsic.size)
    (fits : ∀ position total, graph.Accumulates (intrinsic.getD · 0) position total →
      total < Count.limit)
    {rest : List (List Nat)} {soFar : Array Nat}
    (remaining : ∀ rank sources, rest[rank]? = some sources →
      graph.producersOf (soFar.size + rank) = sources)
    (start : graph.ArrivalsSoFar intrinsic soFar) :
    ∃ result, rest.foldlM (fun arrival sources => do
      return arrival.push (← latestDelivery arrival intrinsic sources)) soFar = .ok result := by
  induction rest generalizing soFar with
  | nil => exact ⟨soFar, rfl⟩
  | cons sources rest ih =>
    have own : graph.producersOf soFar.size = sources := remaining 0 sources rfl
    -- Producers come first, so the arrivals that a delivery needs are known, and it is a path's sum.
    have delivered : ∃ latest, latestDelivery soFar intrinsic sources = .ok latest := by
      apply latestDelivery_ok
      intro source member
      rw [← own] at member
      have before := inOrder.precedes member
      have inside := lt_size_of_mem_producersOf member
      exact ⟨before, by omega, fits _ _ (.step member (start source before).1)⟩
    obtain ⟨latest, delivery⟩ := delivered
    have next := start.push (own ▸ delivery)
    obtain ⟨result, later⟩ := ih (fun rank sources found => by
      have := remaining (rank + 1) sources (by simpa using found)
      simpa [Nat.add_assoc, Nat.add_comm 1 rank] using this) next
    exact ⟨result, by
      simp only [List.foldlM_cons, bind_eq_ok, pure_eq_ok]
      exact ⟨_, ⟨latest, delivery, rfl⟩, later⟩⟩

theorem arrivals_ok (inOrder : graph.Ordered) (sizes : graph.size ≤ intrinsic.size)
    (fits : ∀ position total, graph.Accumulates (intrinsic.getD · 0) position total →
      total < Count.limit) :
    ∃ arrival, graph.arrivals intrinsic = .ok arrival := by
  rw [arrivals_eq_foldlM]
  exact arrivals_ok_from inOrder sizes fits
    (fun rank sources found => producersOf_eq_getElem (by simpa using found))
    (fun position inside => absurd inside (by simp))

end Arrivals

/-! ## Waits -/

section Waits

variable {graph : LatencyGraph} {arrival intrinsic : Array Nat} {producer : Nat}

theorem mapM_sub_eq_ok {deadlines rests : List Nat} {earliest : Nat}
    (split : deadlines.mapM (Count.sub · earliest) = .ok rests) :
    rests = deadlines.map (· - earliest) := by
  rw [mapM_eq_ok] at split
  induction split with
  | nil => rfl
  | cons entry _ ih => rw [List.map_cons, ← ih, (Count.sub_eq_ok.mp entry).2]

/-- Either the producer feeds nobody, or it waits for its earliest consumer and
leaves each link what that consumer lacks. -/
theorem waits_cases {wait : Nat} {rests : List Nat}
    (answer : graph.waits arrival intrinsic producer = .ok (wait, rests)) :
    (graph.consumersOf producer = [] ∧ wait = 0 ∧ rests = []) ∨
    ∃ earliest ∈ (graph.consumersOf producer).map (arrival.getD · 0),
      (∀ consumer ∈ graph.consumersOf producer, earliest ≤ arrival.getD consumer 0) ∧
      arrival.getD producer 0 + intrinsic.getD producer 0 + wait = earliest ∧
      rests = (graph.consumersOf producer).map (arrival.getD · 0 - earliest) := by
  unfold waits at answer
  dsimp only at answer
  -- Only a producer without consumers has no earliest one.
  split at answer
  · rename_i none
    cases answer
    rw [List.min?_eq_none_iff, List.map_eq_nil_iff] at none
    exact .inl ⟨none, rfl, rfl⟩
  · rename_i earliest found
    obtain ⟨attained, least⟩ := List.min?_eq_some_iff.mp found
    simp only [bind_eq_ok, itemAt_eq_ok, Count.add_eq_ok, Count.sub_eq_ok, pure_eq_ok,
      Prod.mk.injEq] at answer
    obtain ⟨own, atIntrinsic, _, ⟨_, rfl⟩, _, ⟨early, rfl⟩, rests', split, rfl, rfl⟩ := answer
    have same : intrinsic.getD producer 0 = own := by
      simp [Array.getD_eq_getD_getElem?, atIntrinsic]
    refine .inr ⟨earliest, attained, ?_, by omega, ?_⟩
    · intro consumer member
      exact least _ (List.mem_map.mpr ⟨consumer, member, rfl⟩)
    · rw [mapM_sub_eq_ok split, List.map_map]
      rfl

theorem waits_balance {wait : Nat} {rests : List Nat}
    (answer : graph.waits arrival intrinsic producer = .ok (wait, rests)) :
    rests.length = (graph.consumersOf producer).length ∧
    ∀ (rank consumer : Nat), (graph.consumersOf producer)[rank]? = some consumer → ∃ rest,
      rests[rank]? = some rest ∧
      arrival.getD producer 0 + intrinsic.getD producer 0 + wait + rest = arrival.getD consumer 0 := by
  rcases waits_cases answer with ⟨idle, _, rfl⟩ | ⟨earliest, _, least, delivered, rfl⟩
  · simp [idle]
  · refine ⟨List.length_map _, ?_⟩
    intro rank consumer item
    have late := least consumer (List.mem_of_getElem? item)
    exact ⟨arrival.getD consumer 0 - earliest, by rw [List.getElem?_map, item]; rfl, by omega⟩

theorem waits_tight {wait : Nat} {rests : List Nat}
    (answer : graph.waits arrival intrinsic producer = .ok (wait, rests))
    (feeds : graph.consumersOf producer ≠ []) : ∃ rank : Nat, rests[rank]? = some 0 := by
  rcases waits_cases answer with ⟨idle, _, _⟩ | ⟨earliest, attained, _, _, rfl⟩
  · exact absurd idle feeds
  · obtain ⟨consumer, member, same⟩ := List.mem_map.mp attained
    obtain ⟨rank, item⟩ := List.mem_iff_getElem?.mp member
    exact ⟨rank, by rw [List.getElem?_map, item, Option.map_some, same, Nat.sub_self]⟩

theorem waits_idle {wait : Nat} {rests : List Nat}
    (answer : graph.waits arrival intrinsic producer = .ok (wait, rests))
    (idle : graph.consumersOf producer = []) : wait = 0 := by
  rcases waits_cases answer with ⟨_, zero, _⟩ | ⟨_, attained, _⟩
  · exact zero
  · simp [idle] at attained

theorem waits_ok (present : producer < intrinsic.size)
    (early : ∀ consumer ∈ graph.consumersOf producer,
      arrival.getD producer 0 + intrinsic.getD producer 0 ≤ arrival.getD consumer 0)
    (fits : arrival.getD producer 0 + intrinsic.getD producer 0 < Count.limit ∨
      graph.consumersOf producer = []) :
    ∃ answer, graph.waits arrival intrinsic producer = .ok answer := by
  unfold waits
  dsimp only
  split
  · exact ⟨_, rfl⟩
  · rename_i earliest found
    obtain ⟨attained, least⟩ := List.min?_eq_some_iff.mp found
    obtain ⟨consumer, member, same⟩ := List.mem_map.mp attained
    have inTime := early consumer member
    have counted : arrival.getD producer 0 + intrinsic[producer] < Count.limit := by
      rcases fits with fits | none
      · simpa [Array.getD_eq_getD_getElem?, present] using fits
      · simp [none] at member
    have delivered : arrival.getD producer 0 + intrinsic[producer] ≤ earliest := by
      rw [← same]
      simpa [Array.getD_eq_getD_getElem?, present] using inTime
    -- Nothing fails to be subtracted: no deadline is before the earliest.
    obtain ⟨rests, split⟩ := mapM_ok_of_forall (Count.sub · earliest)
      ((graph.consumersOf producer).map fun position => arrival.getD position 0)
      (fun deadline member => ⟨deadline - earliest, Count.sub_eq_ok.mpr ⟨least deadline member, rfl⟩⟩)
    refine ⟨(earliest - (arrival.getD producer 0 + intrinsic[producer]), rests), ?_⟩
    simp only [bind_eq_ok, itemAt_eq_ok, Count.add_eq_ok, Count.sub_eq_ok, pure_eq_ok, split]
    exact ⟨intrinsic[producer], Array.getElem?_eq_getElem present, _, ⟨counted, rfl⟩, _,
      ⟨delivered, rfl⟩, rests, rfl, rfl⟩

end Waits

/-! ## Alignments -/

/-- An alignment that solves the equations of a graph for some latencies. -/
structure Aligned (graph : LatencyGraph) (latency : Nat → Nat) (alignment : Alignment) : Prop where
  arrival_size : alignment.arrival.size = graph.size
  values_size : alignment.values.size = graph.size
  links_size : alignment.links.size = graph.links.length
  arrival : ∀ {position}, position < graph.size →
    graph.IsArrival latency position (alignment.arrivalAt position)
  balance : ∀ {producer consumer link}, graph.link producer consumer = some link →
    ∃ wait rest, alignment.values[producer]? = some wait ∧ alignment.links[link]? = some rest ∧
      alignment.arrivalAt producer + latency producer + wait + rest = alignment.arrivalAt consumer
  tight : ∀ {producer}, graph.consumersOf producer ≠ [] →
    ∃ consumer link, graph.link producer consumer = some link ∧ alignment.links[link]? = some 0
  idle : ∀ {producer}, producer < graph.size → graph.consumersOf producer = [] →
    alignment.values[producer]? = some 0

section Align

variable {graph : LatencyGraph} {intrinsic : Array Nat}

/-- A row for each producer: its wait, and the rest for each of its consumers. -/
structure Waits.Table (graph : LatencyGraph) (arrival intrinsic : Array Nat) (rows : List (Nat × List Nat)) : Prop where
  length : rows.length = graph.size
  row : ∀ {producer} row, rows[producer]? = some row → graph.waits arrival intrinsic producer = .ok row

namespace Waits.Table

variable {arrival : Array Nat} {rows : List (Nat × List Nat)}

theorem of_mapM (answer : List.Forall₂ (fun producer row => graph.waits arrival intrinsic producer = .ok row)
    (List.range graph.size) rows) : Table graph arrival intrinsic rows := by
  refine ⟨by simpa using answer.length_eq.symm, fun {producer} row found => ?_⟩
  obtain ⟨other, listed, here⟩ := exists_getElem?_right answer found
  obtain ⟨_, same⟩ := List.getElem?_eq_some_iff.mp listed
  rwa [← same, List.getElem_range] at here

theorem value_at {producer wait : Nat} {rests : List Nat} (found : rows[producer]? = some (wait, rests)) :
    (rows.map Prod.fst).toArray[producer]? = some wait := by
  rw [List.getElem?_toArray, List.getElem?_map, found]
  rfl

variable (table : Table graph arrival intrinsic rows)
include table

theorem exists_row {producer : Nat} (inside : producer < graph.size) :
    ∃ wait rests, rows[producer]? = some (wait, rests) ∧
      graph.waits arrival intrinsic producer = .ok (wait, rests) := by
  have found := List.getElem?_eq_getElem (table.length ▸ inside)
  exact ⟨_, _, found, table.row _ found⟩

theorem flatMap_eq : rows.flatMap Prod.snd = (List.range graph.size).flatMap fun producer =>
    (rows[producer]?.map Prod.snd).getD [] := by
  rw [List.flatMap_def, List.flatMap_def]
  congr 1
  apply List.ext_getElem
  · simp [table.length]
  · intro position here there
    simp only [List.length_map] at here
    simp [here]

theorem length_row {producer : Nat} (inside : producer < graph.size) :
    ((rows[producer]?.map Prod.snd).getD []).length = (graph.consumersOf producer).length := by
  obtain ⟨wait, rests, found, answer⟩ := table.exists_row inside
  rw [found]
  exact (waits_balance answer).1

theorem link_at (inOrder : graph.Ordered) {producer consumer link rank wait : Nat} {rests : List Nat}
    (linked : graph.link producer consumer = some link) (item : (graph.consumersOf producer)[rank]? = some consumer)
    (found : rows[producer]? = some (wait, rests)) : (rows.flatMap Prod.snd).toArray[link]? = rests[rank]? := by
  rw [List.getElem?_toArray, table.flatMap_eq, inOrder.getElem?_flatMap _ linked item, found]
  · rfl
  · exact fun other inside => table.length_row inside

theorem length_links : (rows.flatMap Prod.snd).length = graph.links.length := by
  rw [table.flatMap_eq, links, List.length_flatMap, List.length_flatMap]
  congr 1
  refine List.map_congr_left fun producer member => ?_
  rw [table.length_row (List.mem_range.mp member), List.length_map]

end Waits.Table

theorem align_aligned (inOrder : graph.Ordered) {alignment : Alignment}
    (answer : graph.align intrinsic = .ok alignment) :
    graph.Aligned (intrinsic.getD · 0) alignment := by
  simp only [align, bind_eq_ok, mapM_eq_ok, pure_eq_ok] at answer
  obtain ⟨arrival, arrived, rows, waited, rfl⟩ := answer
  obtain ⟨size, arrivals⟩ := arrivals_isArrival arrived
  have table := Waits.Table.of_mapM waited
  refine ⟨size, by simp [table.length], table.length_links, fun inside => arrivals _ (size ▸ inside), ?_, ?_, ?_⟩
  · intro producer consumer link linked
    obtain ⟨rank, item, _⟩ := inOrder.link_eq_some.mp linked
    have inside := (inOrder.lt_size_of_mem_consumersOf (List.mem_of_getElem? item)).1
    obtain ⟨wait, rests, found, waits⟩ := table.exists_row inside
    obtain ⟨rest, atRank, equation⟩ := (waits_balance waits).2 rank consumer item
    exact ⟨wait, rest, Waits.Table.value_at found, (table.link_at inOrder linked item found).trans atRank, equation⟩
  · intro producer feeds
    obtain ⟨consumer, member⟩ := List.exists_mem_of_ne_nil _ feeds
    have inside := (inOrder.lt_size_of_mem_consumersOf member).1
    obtain ⟨wait, rests, found, waits⟩ := table.exists_row inside
    obtain ⟨rank, atRank⟩ := waits_tight waits feeds
    -- The rank is that of some consumer, as there is a rest for each of them.
    have bound : rank < (graph.consumersOf producer).length := by
      rw [← (waits_balance waits).1]
      exact (List.getElem?_eq_some_iff.mp atRank).1
    have item := List.getElem?_eq_getElem bound
    have linked := inOrder.link_eq_some.mpr ⟨rank, item, rfl⟩
    exact ⟨_, _, linked, (table.link_at inOrder linked item found).trans atRank⟩
  · intro producer inside idle
    obtain ⟨wait, rests, found, waits⟩ := table.exists_row inside
    rw [Waits.Table.value_at found]
    exact congrArg some (waits_idle waits idle)

theorem align_ok (intrinsic : Array Nat) (inOrder : graph.Ordered) (sizes : graph.size ≤ intrinsic.size)
    (fits : ∀ position total, graph.Accumulates (intrinsic.getD · 0) position total →
      total < Count.limit) :
    ∃ alignment, graph.align intrinsic = .ok alignment := by
  obtain ⟨arrival, arrived⟩ := arrivals_ok inOrder sizes fits
  obtain ⟨size, arrivals⟩ := arrivals_isArrival arrived
  have waited : ∀ producer ∈ List.range graph.size,
      ∃ answer, graph.waits arrival intrinsic producer = .ok answer := by
    intro producer member
    have inside : producer < graph.size := List.mem_range.mp member
    -- An arrival is never before what any producer delivers.
    have early : ∀ consumer ∈ graph.consumersOf producer,
        arrival.getD producer 0 + intrinsic.getD producer 0 ≤ arrival.getD consumer 0 := by
      intro consumer fed
      have within := (inOrder.lt_size_of_mem_consumersOf fed).2
      have before := arrivals producer (size ▸ inside)
      have after := arrivals consumer (size ▸ within)
      exact before.step_le (inOrder.mem_consumersOf.mp fed) after
    refine waits_ok (Nat.lt_of_lt_of_le inside sizes) early ?_
    by_cases idle : graph.consumersOf producer = []
    · exact .inr idle
    · obtain ⟨consumer, fed⟩ := List.exists_mem_of_ne_nil _ idle
      exact .inl (fits consumer _
        (Accumulates.step (inOrder.mem_consumersOf.mp fed) (arrivals producer (size ▸ inside)).1))
  obtain ⟨waits, answers⟩ := mapM_ok_of_forall _ _ waited
  simp [align, arrived, answers]

end Align

end LatencyGraph

end Patchbay
