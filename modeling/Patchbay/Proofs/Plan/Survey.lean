import Patchbay.Proofs.Latency.Alignment
import Patchbay.Proofs.Plan.Wiring

/-! What a survey says about a patch.

Render positions mirror the patch: one position feeds another where the node of
the one feeds that of the other, so the longest accumulated latencies are the
same on both sides. The bound of a survey is the greatest delay that the patch
demands.
-/

set_option autoImplicit false

namespace Patchbay

theorem foldl_max_spec (items : List Nat) (least : Nat) :
    least ≤ items.foldl max least ∧ (∀ item ∈ items, item ≤ items.foldl max least) ∧
      (items.foldl max least = least ∨ items.foldl max least ∈ items) := by
  induction items generalizing least with
  | nil => simp
  | cons item rest ih =>
    obtain ⟨start, bounds, attained⟩ := ih (max least item)
    rw [List.foldl_cons]
    refine ⟨by omega, ?_, ?_⟩
    · intro other member
      rcases List.mem_cons.mp member with rfl | member
      · omega
      · exact bounds other member
    · rcases attained with same | member
      · rcases Nat.le_total item least with small | large
        · exact .inl (by omega)
        · exact .inr (List.mem_cons.mpr (.inl (by omega)))
      · exact .inr (List.mem_cons_of_mem _ member)

theorem Survey.delayCapacity_le {survey : Survey} {position dest : Nat}
    (member : dest ∈ survey.graph.consumersOf position) : survey.delayCapacity position ≤ survey.worst.arrivalAt dest := by
  unfold Survey.delayCapacity
  cases least : ((survey.graph.consumersOf position).map survey.worst.arrivalAt).min? with
  | none => simp
  | some arrival =>
    exact (List.min?_eq_some_iff.mp least).2 _ (List.mem_map.mpr ⟨dest, member, rfl⟩)

variable {ν : Type}

/-- Positions feed each other as the placed nodes do. -/
structure Mirrors (patch : Patch ν) (placed : List (Placed ν)) (graph : LatencyGraph) : Prop where
  placement : Placement patch placed
  inOrder : graph.Ordered
  size : graph.size = placed.length
  producers : ∀ {dest source : Nat}, source ∈ graph.producersOf dest ↔
    ∃ place other, placed[dest]? = some place ∧ placed[source]? = some other ∧
      patch.Feeds other.id place.id

/-! ## Paths -/

namespace Mirrors

variable {patch : Patch ν} {placed : List (Placed ν)} {graph : LatencyGraph}

variable (mirrors : Mirrors patch placed graph)
include mirrors

theorem accumulates_iff {latency : Nat → Nat} {latencyOf : NodeId → Nat}
    (agree : ∀ {position : Nat} {place}, placed[position]? = some place →
      latency position = latencyOf place.id)
    {position : Nat} {place : Placed ν} (item : placed[position]? = some place) {total : Nat} :
    graph.Accumulates latency position total ↔ patch.Accumulates latencyOf place.id total := by
  constructor
  · intro path
    induction path generalizing place with
    | start => exact .start place.id
    | step member _ ih =>
      obtain ⟨here, other, atDest, atSource, feeds⟩ := mirrors.producers.mp member
      rw [item] at atDest
      cases atDest
      rw [agree atSource]
      exact .step feeds (ih atSource)
  · intro path
    generalize same : place.id = id at path
    induction path generalizing position place with
    | start => exact .start position
    | @step source dest total feeds _ ih =>
      subst same
      obtain ⟨earlier, _, other, atSource, rfl⟩ := mirrors.placement.precedes item feeds
      rw [← agree atSource]
      exact .step (mirrors.producers.mpr ⟨place, other, item, atSource, feeds⟩) (ih atSource rfl)

theorem isArrival_iff {latency : Nat → Nat} {latencyOf : NodeId → Nat}
    (agree : ∀ {position : Nat} {place}, placed[position]? = some place →
      latency position = latencyOf place.id)
    {position : Nat} {place : Placed ν} (item : placed[position]? = some place) {arrival : Nat} :
    graph.IsArrival latency position arrival ↔ patch.IsArrival latencyOf place.id arrival := by
  simp only [LatencyGraph.IsArrival, Patch.IsArrival, mirrors.accumulates_iff agree item]

end Mirrors

/-! ## Surveys -/

variable [Node ν]

def declaredAt (placed : List (Placed ν)) : Array Nat :=
  (placed.map fun place => max (Node.maxLatency place.node) (Node.latency place.node)).toArray

structure Surveyed (patch : Patch ν) (placed : List (Placed ν)) (survey : Survey) : Prop
    extends Mirrors patch placed survey.graph where
  fits : ∀ id edge, patch.edge? id = some edge → patch.Fits edge
  wired : Wired patch placed survey.wires
  intrinsic : survey.intrinsic = (placed.map fun place => Node.latency place.node).toArray
  surveys : survey.graph.align (declaredAt placed) = .ok survey.worst
  worst : survey.graph.Aligned ((declaredAt placed).getD · 0) survey.worst

namespace Mirrors

variable {patch : Patch ν} {placed : List (Placed ν)} {graph : LatencyGraph}

theorem declared_agrees (placement : Placement patch placed) {position : Nat} {place : Placed ν}
    (item : placed[position]? = some place) :
    (declaredAt placed).getD position 0 = patch.declared place.id := by
  have present := placement.present place (List.mem_of_getElem? item)
  simp [declaredAt, Array.getD_eq_getD_getElem?, item, Patch.declared, present]

/-- Sums of latencies that stay below what nodes declare are counts where the
declared ones are. -/
theorem accumulates_fits (mirrors : Mirrors patch placed graph) {latency : Nat → Nat}
    (below : ∀ position, latency position ≤ (declaredAt placed).getD position 0)
    (fits : ∀ id total, patch.Accumulates patch.declared id total → total < Count.limit)
    {position total : Nat} (path : graph.Accumulates latency position total) :
    total < Count.limit := by
  obtain ⟨greater, bound, path⟩ := path.mono below
  cases path with
  | start =>
    have : 0 < Count.limit := by decide
    omega
  | step member path =>
    have inside := LatencyGraph.lt_size_of_mem_producersOf member
    rw [mirrors.size] at inside
    have item := List.getElem?_eq_getElem inside
    have := fits _ _ ((mirrors.accumulates_iff (declared_agrees mirrors.placement) item).mp
      (.step member path))
    omega

end Mirrors

section

variable {patch : Patch ν} {placed : List (Placed ν)}

theorem mem_sourcesOf {wires : List Wire} {source : Nat} :
    source ∈ Survey.sourcesOf wires ↔ ∃ wire ∈ wires, wire.source = source := by
  simp [Survey.sourcesOf, List.mem_eraseDups]

theorem mem_sources_iff (placement : Placement patch placed)
    (fits : ∀ id edge, patch.edge? id = some edge → patch.Fits edge)
    {wires : List (List (List Wire))} (wired : Wired patch placed wires) {dest source : Nat} :
    source ∈ Survey.sourcesOf (wires[dest]?.getD []).flatten ↔
      ∃ place other, placed[dest]? = some place ∧ placed[source]? = some other ∧
        patch.Feeds other.id place.id := by
  rw [mem_sourcesOf]
  constructor
  · rintro ⟨wire, member, rfl⟩
    have inside : dest < placed.length := by
      rw [← wired.length]
      by_contra outside
      simp [outside] at member
    have item := List.getElem?_eq_getElem inside
    obtain ⟨id, edge, found, into, carries⟩ := wired.exists_edge item member
    obtain ⟨other, atSource, same⟩ := carries.source
    exact ⟨_, other, item, atSource, id, edge, found, same.symm, into⟩
  · rintro ⟨place, other, atDest, atSource, id, edge, found, from', into⟩
    obtain ⟨wire, member, carries⟩ := wired.exists_wire atDest found (fits id edge found) placement into
    obtain ⟨again, item, same⟩ := carries.source
    exact ⟨wire, member, placement.position_unique item atSource (same.trans from')⟩

theorem mirrors_of_built (placement : Placement patch placed)
    (fits : ∀ id edge, patch.edge? id = some edge → patch.Fits edge) {graph : LatencyGraph}
    (built : LatencyGraph.ofProducers
      ((wiring patch placed).map (Survey.sourcesOf ·.flatten)).toArray = .ok graph) :
    Mirrors patch placed graph := by
  have wired := wiring_wired placement fits
  obtain ⟨producers, inOrder⟩ := LatencyGraph.ofProducers_eq_ok built
  refine ⟨placement, inOrder, ?_, ?_⟩
  · simp [LatencyGraph.size, producers, wired.length]
  · intro dest source
    rw [← mem_sources_iff placement fits wired]
    unfold LatencyGraph.producersOf
    rw [producers]
    cases item : (wiring patch placed)[dest]? <;> simp [item, Survey.sourcesOf]

theorem Survey.ofPlaced_surveyed (placement : Placement patch placed)
    (fits : ∀ id edge, patch.edge? id = some edge → patch.Fits edge) {survey : Survey}
    (answer : Survey.ofPlaced patch placed = .ok survey) : Surveyed patch placed survey := by
  simp only [Survey.ofPlaced, bind_eq_ok, pure_eq_ok] at answer
  obtain ⟨graph, built, worst, aligned, rfl⟩ := answer
  have mirrors := mirrors_of_built placement fits built
  exact ⟨mirrors, fits, wiring_wired placement fits, rfl, aligned,
    LatencyGraph.align_aligned mirrors.inOrder aligned⟩

theorem Survey.ofPlaced_ok (placement : Placement patch placed)
    (fits : ∀ id edge, patch.edge? id = some edge → patch.Fits edge)
    (sums : ∀ id total, patch.Accumulates patch.declared id total → total < Count.limit) :
    ∃ survey, Survey.ofPlaced patch placed = .ok survey := by
  have wired := wiring_wired placement fits
  -- Every wire comes from an earlier position, so the sources make up a graph.
  have precedes : ∀ (position : Nat) sources,
      ((wiring patch placed).map (Survey.sourcesOf ·.flatten)).toArray[position]? = some sources →
        ∀ source ∈ sources, source < position := by
    intro position sources found source member
    simp only [List.getElem?_toArray, List.getElem?_map, Option.map_eq_some_iff] at found
    obtain ⟨ports, item, rfl⟩ := found
    have produces : source ∈ Survey.sourcesOf ((wiring patch placed)[position]?.getD []).flatten := by
      rw [item]
      exact member
    obtain ⟨place, other, atDest, atSource, feeds⟩ := (mem_sources_iff placement fits wired).mp produces
    obtain ⟨earlier, less, again, atEarlier, same⟩ := placement.precedes atDest feeds
    rw [placement.position_unique atSource atEarlier same.symm]
    exact less
  obtain ⟨graph, built⟩ := LatencyGraph.ofProducers_ok precedes
  have mirrors := mirrors_of_built placement fits built
  obtain ⟨worst, aligned⟩ := LatencyGraph.align_ok (declaredAt placed) mirrors.inOrder
    (by simp [declaredAt, mirrors.size])
    fun position total path => mirrors.accumulates_fits (fun _ => le_refl _) sums path
  unfold declaredAt at aligned
  exact ⟨_, by simp only [Survey.ofPlaced, built, aligned, ok_bind]; rfl⟩

end

namespace Surveyed

variable {patch : Patch ν} {placed : List (Placed ν)} {survey : Survey}
  (surveyed : Surveyed patch placed survey)
include surveyed

theorem worst_arrival {position : Nat} {place : Placed ν} (item : placed[position]? = some place) :
    patch.IsArrival patch.declared place.id (survey.worst.arrivalAt position) := by
  have inside : position < survey.graph.size := by
    rw [surveyed.size]
    exact (List.getElem?_eq_some_iff.mp item).1
  exact (surveyed.isArrival_iff (Mirrors.declared_agrees surveyed.placement) item).mp
    (surveyed.worst.arrival inside)

theorem worst_arrival_eq {position arrival : Nat} {place : Placed ν}
    (item : placed[position]? = some place)
    (arrives : patch.IsArrival patch.declared place.id arrival) :
    survey.worst.arrivalAt position = arrival :=
  IsGreatest.unique (surveyed.worst_arrival item) arrives

/-! ## Consumers -/

theorem mem_consumersOf {source dest : Nat} : dest ∈ survey.graph.consumersOf source ↔
    ∃ place other, placed[dest]? = some place ∧ placed[source]? = some other ∧
      patch.Feeds other.id place.id := by
  rw [surveyed.inOrder.mem_consumersOf, surveyed.producers]

theorem exists_consumer {position : Nat} {place : Placed ν} {consumer : NodeId}
    (item : placed[position]? = some place) (feeds : patch.Feeds place.id consumer) :
    ∃ dest ∈ survey.graph.consumersOf position, ∃ other, placed[dest]? = some other ∧
      other.id = consumer := by
  obtain ⟨id, edge, found, from', rfl⟩ := feeds
  obtain ⟨_, input, _, ⟨node, present, _⟩, _⟩ := surveyed.fits id edge found
  obtain ⟨dest, atDest⟩ := surveyed.placement.exists_position present
  exact ⟨dest, surveyed.mem_consumersOf.mpr ⟨_, place, atDest, item, id, edge, found, from', rfl⟩,
    _, atDest, rfl⟩

theorem fansOut_iff {position : Nat} {place : Placed ν} (item : placed[position]? = some place) :
    survey.graph.fansOut position = true ↔ patch.FansOut place.id := by
  have unique := surveyed.inOrder.consumersOf_nodup position
  simp only [LatencyGraph.fansOut, decide_eq_true_eq]
  constructor
  · intro several
    have first := List.getElem_mem (l := survey.graph.consumersOf position) (n := 0) (by omega)
    have second := List.getElem_mem (l := survey.graph.consumersOf position) (n := 1) several
    obtain ⟨place₁, other₁, atFirst, atSource, feeds₁⟩ := surveyed.mem_consumersOf.mp first
    obtain ⟨place₂, other₂, atSecond, again, feeds₂⟩ := surveyed.mem_consumersOf.mp second
    rw [item] at atSource again
    cases atSource
    cases again
    refine ⟨place₁.id, place₂.id, ?_, feeds₁, feeds₂⟩
    intro same
    have positions := surveyed.placement.position_unique atFirst atSecond same
    have := (List.Nodup.getElem_inj_iff unique).mp positions
    omega
  · rintro ⟨first, second, differ, feeds, feeds'⟩
    obtain ⟨dest, member, other, atDest, rfl⟩ := surveyed.exists_consumer item feeds
    obtain ⟨dest', member', other', atDest', rfl⟩ := surveyed.exists_consumer item feeds'
    by_contra few
    -- With one consumer at most the two would be the same.
    have single : ∃ only, survey.graph.consumersOf position ⊆ [only] := by
      cases consumers : survey.graph.consumersOf position with
      | nil => simp [consumers] at member
      | cons only rest =>
        rw [consumers, List.length_cons] at few
        rw [List.eq_nil_of_length_eq_zero (l := rest) (by omega)]
        exact ⟨only, fun _ => id⟩
    obtain ⟨only, subset⟩ := single
    obtain rfl := List.mem_singleton.mp (subset member)
    obtain rfl := List.mem_singleton.mp (subset member')
    rw [atDest] at atDest'
    cases atDest'
    exact differ rfl

/-! ## Capacities -/

theorem delayCapacity_idle {position : Nat} {place : Placed ν} (item : placed[position]? = some place)
    (idle : ∀ consumer, ¬ patch.Feeds place.id consumer) : survey.delayCapacity position = 0 := by
  have none : survey.graph.consumersOf position = [] := by
    rw [List.eq_nil_iff_forall_not_mem]
    intro dest member
    obtain ⟨other, again, _, atSource, feeds⟩ := surveyed.mem_consumersOf.mp member
    rw [item] at atSource
    cases atSource
    exact idle _ feeds
  simp [Survey.delayCapacity, none]

theorem delayCapacity_earliest {position : Nat} {place : Placed ν}
    (item : placed[position]? = some place) {consumer : NodeId}
    (feeds : patch.Feeds place.id consumer) :
    patch.EarliestArrival place.id (survey.delayCapacity position) := by
  obtain ⟨dest, member, _⟩ := surveyed.exists_consumer item feeds
  unfold Survey.delayCapacity
  cases least : ((survey.graph.consumersOf position).map survey.worst.arrivalAt).min? with
  | none =>
    rw [List.min?_eq_none_iff, List.map_eq_nil_iff] at least
    simp [least] at member
  | some arrival =>
    obtain ⟨attained, below⟩ := List.min?_eq_some_iff.mp least
    obtain ⟨earliest, among, rfl⟩ := List.mem_map.mp attained
    obtain ⟨other, again, atDest, atSource, feeds'⟩ := surveyed.mem_consumersOf.mp among
    rw [item] at atSource
    cases atSource
    refine ⟨⟨other.id, feeds', surveyed.worst_arrival atDest⟩, ?_⟩
    rintro late ⟨consumer', feeds'', arrives⟩
    obtain ⟨dest', member', other', atDest', rfl⟩ := surveyed.exists_consumer item feeds''
    have := below _ (List.mem_map.mpr ⟨dest', member', rfl⟩)
    rw [surveyed.worst_arrival_eq atDest' arrives] at this
    exact this

theorem lineCapacity_branches {position : Nat} {place : Placed ν} {id : EdgeId} {edge : Edge}
    {wire : Wire} (item : placed[position]? = some place) (found : patch.edge? id = some edge)
    (into : edge.dest = place.id) (carries : Wire.Carries patch placed edge wire)
    (room : 0 < survey.lineCapacity position wire) :
    patch.Branches edge wire.type (survey.lineCapacity position wire) := by
  unfold Survey.lineCapacity at room ⊢
  split at room
  · rename_i several
    rw [if_pos several]
    obtain ⟨source, atSource, same⟩ := carries.source
    refine ⟨⟨id, found⟩, carries.type, ?_, several.2, ?_⟩
    · rw [← same]
      exact (surveyed.fansOut_iff atSource).mp several.1
    · rw [into]
      exact surveyed.worst_arrival item
  · omega

theorem lineCapacity_eq {position arrival : Nat} {place : Placed ν} {edge : Edge} {type : PortType}
    {wire : Wire} (item : placed[position]? = some place) (into : edge.dest = place.id)
    (carries : Wire.Carries patch placed edge wire) (branches : patch.Branches edge type arrival) :
    survey.lineCapacity position wire = arrival := by
  obtain ⟨_, ⟨port, atPort, rfl⟩, several, delayed, arrives⟩ := branches
  obtain ⟨spec, atSpec, sameType⟩ := carries.type
  obtain rfl := atSpec.unique atPort
  obtain ⟨source, atSource, same⟩ := carries.source
  rw [← same, ← surveyed.fansOut_iff atSource] at several
  rw [sameType] at delayed
  rw [into] at arrives
  unfold Survey.lineCapacity
  rw [if_pos ⟨several, delayed⟩, surveyed.worst_arrival_eq item arrives]

/-! ## The bound -/

theorem le_bound_of_delay {position : Nat} (inside : position < placed.length) :
    survey.delayCapacity position ≤ survey.bound := by
  have among : survey.delayCapacity position ∈
      (List.range survey.graph.size).map survey.delayCapacity :=
    List.mem_map.mpr ⟨position, List.mem_range.mpr (surveyed.size ▸ inside), rfl⟩
  have := (foldl_max_spec _ 0).2.1 _ among
  unfold Survey.bound
  omega

theorem exists_wireBetween_iff {producer consumer : Nat} {origin place : Placed ν}
    (source : placed[producer]? = some origin) (item : placed[consumer]? = some place) {type : PortType} :
    (∃ wire ∈ survey.wiresBetween producer consumer, wire.type = type) ↔
      ∃ id edge spec, patch.edge? id = some edge ∧ edge.source = origin.id ∧ edge.dest = place.id ∧
        patch.OutputAt origin.id edge.sourcePort spec ∧ spec.type = type := by
  constructor
  · rintro ⟨wire, among, rfl⟩
    obtain ⟨inWires, from_⟩ := List.mem_filter.mp among
    obtain rfl := of_decide_eq_true from_
    obtain ⟨id, edge, found, into, carries⟩ := surveyed.wired.exists_edge item inWires
    obtain ⟨again, atSource, same⟩ := carries.source
    rw [source] at atSource
    cases atSource
    obtain ⟨spec, atPort, type⟩ := carries.type
    exact ⟨id, edge, spec, found, same.symm, into, same ▸ atPort, type⟩
  · rintro ⟨id, edge, spec, found, from_, into, atPort, rfl⟩
    obtain ⟨wire, inWires, carries⟩ :=
      surveyed.wired.exists_wire item found (surveyed.fits id edge found) surveyed.placement into
    obtain ⟨again, atSource, same⟩ := carries.source
    have here := surveyed.placement.position_unique atSource source (same.trans from_)
    obtain ⟨other, there, type⟩ := carries.type
    rw [from_] at there
    obtain rfl := atPort.unique there
    exact ⟨wire, List.mem_filter.mpr ⟨inWires, decide_eq_true here⟩, type.symm⟩

theorem exists_linkCapacity {position : Nat} {place : Placed ν} {wire : Wire}
    (item : placed[position]? = some place)
    (member : wire ∈ (survey.wires[position]?.getD []).flatten) :
    ∃ link room, survey.graph.link wire.source position = some link ∧
      survey.linkCapacity[link]? = some room ∧ survey.lineCapacity position wire ≤ room := by
  have produces : wire.source ∈ survey.graph.producersOf position := by
    obtain ⟨id, edge, found, into, carries⟩ := surveyed.wired.exists_edge item member
    obtain ⟨source, atSource, same⟩ := carries.source
    exact surveyed.producers.mpr ⟨place, source, item, atSource, id, edge, found, same.symm, into⟩
  obtain ⟨link, found⟩ := surveyed.inOrder.exists_link (surveyed.inOrder.mem_consumersOf.mpr produces)
  refine ⟨link, ((survey.wiresBetween wire.source position).map
    (survey.lineCapacity position)).foldl max 0, found, ?_, ?_⟩
  · rw [Survey.linkCapacity, List.getElem?_map, surveyed.inOrder.getElem?_links found]
    rfl
  · apply (foldl_max_spec _ 0).2.1
    refine List.mem_map.mpr ⟨wire, ?_, rfl⟩
    simpa [Survey.wiresBetween] using member

theorem le_bound_of_line {position : Nat} {place : Placed ν} {wire : Wire}
    (item : placed[position]? = some place)
    (member : wire ∈ (survey.wires[position]?.getD []).flatten) :
    survey.lineCapacity position wire ≤ survey.bound := by
  obtain ⟨link, room, _, atLink, fits⟩ := surveyed.exists_linkCapacity item member
  have := (foldl_max_spec survey.linkCapacity 0).2.1 _ (List.mem_of_getElem? atLink)
  unfold Survey.bound
  omega

theorem demands_le_bound {delay : Nat} (demands : patch.Demands delay) : delay ≤ survey.bound := by
  rcases demands with ⟨id, earliest⟩ | ⟨edge, type, branches⟩
  · obtain ⟨consumer, feeds, _⟩ := earliest.1
    obtain ⟨edgeId, edge, found, rfl, rfl⟩ := feeds
    obtain ⟨_, _, ⟨node, present, _⟩, _⟩ := surveyed.fits edgeId edge found
    obtain ⟨position, item⟩ := surveyed.placement.exists_position present
    have same := IsLeast.unique earliest
      (surveyed.delayCapacity_earliest item ⟨edgeId, edge, found, rfl, rfl⟩)
    rw [same]
    exact surveyed.le_bound_of_delay (List.getElem?_eq_some_iff.mp item).1
  · obtain ⟨id, found⟩ := branches.1
    have fits := surveyed.fits id edge found
    obtain ⟨_, _, _, ⟨node, present, _⟩, _⟩ := surveyed.fits id edge found
    obtain ⟨position, item⟩ := surveyed.placement.exists_position present
    obtain ⟨wire, member, carries⟩ :=
      surveyed.wired.exists_wire item found fits surveyed.placement rfl
    rw [← surveyed.lineCapacity_eq item rfl carries branches]
    exact surveyed.le_bound_of_line item member

theorem demands_bound (positive : 0 < survey.bound) : patch.Demands survey.bound := by
  -- The bound is the larger of two maxima. As it is positive, some node or wire attains it.
  rcases Nat.le_total ((survey.linkCapacity).foldl max 0)
      (((List.range survey.graph.size).map survey.delayCapacity).foldl max 0) with behind | between
  · have same : survey.bound = ((List.range survey.graph.size).map survey.delayCapacity).foldl max 0 :=
      Nat.max_eq_left behind
    rw [same] at positive ⊢
    rcases (foldl_max_spec ((List.range survey.graph.size).map survey.delayCapacity) 0).2.2 with
      zero | attained
    · omega
    obtain ⟨position, inside, equal⟩ := List.mem_map.mp attained
    rw [List.mem_range, surveyed.size] at inside
    have item := List.getElem?_eq_getElem inside
    rw [← equal] at positive ⊢
    by_cases idle : ∀ consumer, ¬ patch.Feeds placed[position].id consumer
    · rw [surveyed.delayCapacity_idle item idle] at positive
      omega
    · push Not at idle
      obtain ⟨consumer, feeds⟩ := idle
      exact .inl ⟨_, surveyed.delayCapacity_earliest item feeds⟩
  · have same : survey.bound = survey.linkCapacity.foldl max 0 := Nat.max_eq_right between
    rw [same] at positive ⊢
    rcases (foldl_max_spec survey.linkCapacity 0).2.2 with zero | attained
    · omega
    obtain ⟨⟨source, dest⟩, _, room⟩ := List.mem_map.mp attained
    simp only at room
    rw [← room] at positive ⊢
    rcases (foldl_max_spec ((survey.wiresBetween source dest).map (survey.lineCapacity dest)) 0).2.2 with
      zero | attained
    · omega
    obtain ⟨wire, among, equal⟩ := List.mem_map.mp attained
    rw [← equal] at positive ⊢
    have member : wire ∈ (survey.wires[dest]?.getD []).flatten := (List.mem_filter.mp among).1
    have inside : dest < placed.length := by
      rw [← surveyed.wired.length]
      by_contra outside
      simp [outside] at member
    have item := List.getElem?_eq_getElem inside
    obtain ⟨id, edge, found, into, carries⟩ := surveyed.wired.exists_edge item member
    exact .inr ⟨edge, wire.type, surveyed.lineCapacity_branches item found into carries positive⟩

end Surveyed

end Patchbay
