import Patchbay.Proofs.Render.Departures

/-! Events arrive, and none is lost.

While the nodes of a plan keep their latencies, nothing is lost exactly if no port
and no edge has more events come out in one block than a list takes. Then every
event is read by every consumer that runs, as late as its port and its edge wait.
-/

set_option autoImplicit false

namespace Patchbay

variable {ν : Type}

/-! ## Between two blocks -/

structure Plan.Applies (intrinsic : Array Nat) (alignment : Alignment) (plan : Plan ν) : Prop where
  intrinsic : plan.monitor.latencies.intrinsic = intrinsic
  compensation : plan.monitor.latencies.compensation = alignment.values
  links : plan.monitor.latencies.links = alignment.links

/-- Between two blocks nodes may change, and delays may be published anew. -/
structure Plan.Tended (before after : Plan ν) : Prop extends before.Adjusted after where
  overflows : after.monitor.overflows = before.monitor.overflows
  intrinsic : after.monitor.latencies.intrinsic = before.monitor.latencies.intrinsic
  published : after.monitor.latencies.compensation = before.monitor.latencies.compensation ∧
      after.monitor.latencies.links = before.monitor.latencies.links ∨
    ∃ alignment, before.monitor.graph.align before.monitor.latencies.intrinsic = .ok alignment ∧
      after.monitor.latencies.compensation = alignment.values ∧
      after.monitor.latencies.links = alignment.links

namespace Plan.Tended

theorem refl (plan : Plan ν) : plan.Tended plan := ⟨.refl plan, rfl, rfl, .inl ⟨rfl, rfl⟩⟩

theorem mapNodes (plan : Plan ν) (change : ν → ν) : plan.Tended (plan.mapNodes change) :=
  ⟨⟨rfl, rfl, rfl, rfl, rfl, rfl⟩, rfl, rfl, .inl ⟨rfl, rfl⟩⟩

theorem refresh {plan : Plan ν} {report : RefreshReport} {monitor : Monitor}
    (answer : plan.monitor.refresh = .ok (report, monitor)) : plan.Tended { plan with monitor } := by
  obtain ⟨alignment, aligns, rfl⟩ := Monitor.refresh_spec answer
  exact ⟨⟨rfl, rfl, rfl, rfl, rfl, rfl⟩, rfl, rfl, .inr ⟨alignment, aligns, rfl, rfl⟩⟩

theorem refreshIfDirty {plan : Plan ν} {report : Option RefreshReport} {monitor : Monitor}
    (answer : plan.monitor.refreshIfDirty = .ok (report, monitor)) : plan.Tended { plan with monitor } := by
  rcases Monitor.refreshIfDirty_cases answer with ⟨_, alignment, aligns, rfl⟩ | ⟨_, rfl⟩
  · exact ⟨⟨rfl, rfl, rfl, rfl, rfl, rfl⟩, rfl, rfl, .inr ⟨alignment, aligns, rfl, rfl⟩⟩
  · exact .refl plan

end Plan.Tended

theorem Plan.Applies.tended {intrinsic : Array Nat} {alignment : Alignment} {plan after : Plan ν}
    (applies : plan.Applies intrinsic alignment) (tended : plan.Tended after)
    (aligns : plan.monitor.graph.align intrinsic = .ok alignment) : after.Applies intrinsic alignment := by
  refine ⟨tended.intrinsic.trans applies.intrinsic, ?_, ?_⟩
  all_goals
    rcases tended.published with ⟨compensation, links⟩ | ⟨again, answer, compensation, links⟩
    · first | exact compensation.trans applies.compensation | exact links.trans applies.links
    · rw [applies.intrinsic, aligns] at answer
      cases answer
      assumption

/-! ## A run without changes of latency -/

variable [Node ν]

/-- Blocks of `size` frames follow one another from the time `start` on. Nodes use
the accessors of their ports, keep the latencies that the plan began with, and emit
events inside the block only. -/
structure Plan.Steady (plan : Plan ν) (size start : Nat) (blocks : List (Block ν)) : Prop where
  clock : ∀ (index : Nat) block, blocks[index]? = some block →
    block.context.clock = .ok (start + index * size)
  typed : ∀ block ∈ blocks, ∀ call ∈ block.calls, call.Typed
  latencies : ∀ block ∈ blocks, ∀ call ∈ block.calls, call.fails = false →
    plan.monitor.latencies.intrinsic[call.position]? = some (Node.latency call.next)
  inside : ∀ block ∈ blocks, EmitsInside size block

variable {patch : Patch ν} {options : CompileOptions} {placed : List (Placed ν)} {survey : Survey}
  {first last : Plan ν} {blocks : List (Block ν)} {start : Nat} {alignment : Alignment}

theorem Plan.Steady.before {size : Nat} {sofar : List (Block ν)} (steady : first.Steady size start blocks)
    (extends_ : sofar <+: blocks) : first.Steady size start sofar where
  clock index block found := steady.clock index block (getElem?_of_starts extends_ found)
  typed block member := steady.typed block (extends_.subset member)
  latencies block member := steady.latencies block (extends_.subset member)
  inside block member := steady.inside block (extends_.subset member)

structure Run.Carries (patch : Patch ν) (options : CompileOptions) (placed : List (Placed ν))
    (survey : Survey) (start : Nat) (alignment : Alignment) (first : Plan ν) (blocks : List (Block ν))
    (last : Plan ν) : Prop where
  serves : last.Serves patch options placed survey
  layout : last.layout = first.layout
  applies : last.Applies first.monitor.latencies.intrinsic alignment
  transits : last.Transits options.format start alignment blocks
  continued : Continued patch options placed survey start alignment first.layout blocks
  lossless : last.monitor.overflows = 0 ↔ ∀ sofar block, sofar ++ [block] <+: blocks →
    block.Fits options.format start alignment sofar

theorem Run.carries (run : Run Plan.Tended first blocks last) (positive : 0 < options.blockSize)
    (serves : first.Serves patch options placed survey)
    (aligns : first.monitor.graph.align first.monitor.latencies.intrinsic = .ok alignment)
    (applies : first.Applies first.monitor.latencies.intrinsic alignment)
    (transits : first.Transits options.format start alignment []) (fresh : first.monitor.overflows = 0)
    (steady : first.Steady options.blockSize start blocks) :
    Run.Carries patch options placed survey start alignment first blocks last := by
  induction run with
  | start =>
    have none : ∀ sofar (block : Block ν), ¬ sofar ++ [block] <+: [] := by simp
    exact ⟨serves, rfl, applies, transits, fun sofar block extends_ => absurd extends_ (none sofar block),
      iff_of_true fresh fun sofar block extends_ => absurd extends_ (none sofar block)⟩
  | @render earlier plan block before changes renders ih =>
    have sooner := ih (steady.before (List.prefix_append _ _))
    have graph : plan.monitor.graph = first.monitor.graph := sooner.serves.graph.trans serves.graph.symm
    have now := sooner.serves.adjusted changes.toAdjusted
    have applies := sooner.applies.tended changes (graph ▸ aligns)
    have layout := changes.layout.trans sooner.layout
    have member : block ∈ earlier ++ [block] := by simp
    obtain ⟨clock, losses, ticks, _, rendered⟩ := Engine.render_spec now.ready renders
      fun call among => (steady.typed block member call among).orderly options.format
    have told := steady.clock earlier.length block List.getElem?_concat_length
    rw [ticks] at told
    have continues : block.Continues patch options placed survey start alignment earlier clock losses := {
      serves := now
      made := ⟨ticks, rendered⟩
      positive
      now := Except.ok.inj told
      compensation := applies.compensation
      links := applies.links
      inside := steady.inside block member
      transits := sooner.transits.adjusted changes.toAdjusted }
    -- Reports that repeat what is known leave the published delays alone.
    have kept := rendered.monitor.steady (by
      rw [applies.intrinsic]
      exact steady.latencies block member)
    refine ⟨now.rendered rendered, rendered.layout.trans layout, ?_, continues.transits_after, ?_, ?_⟩
    · exact ⟨kept ▸ applies.intrinsic, kept ▸ applies.compensation, kept ▸ applies.links⟩
    · exact forall_prefix_concat.mpr ⟨sooner.continued, layout, clock, losses, continues⟩
    · rw [forall_prefix_concat, ← sooner.lossless, ← continues.lossless_iff (steady.typed block member),
        rendered.monitor.overflows, changes.overflows, Nat.add_eq_zero_iff]

/-! ## Ports and edges of the patch -/

def Patch.EventEdge (patch : Patch ν) (id : EdgeId) (edge : Edge) : Prop :=
  patch.edge? id = some edge ∧ ∃ spec, patch.OutputAt edge.source edge.sourcePort spec ∧ spec.type.Timed

/-- No port and no edge has more events come out in one block than a list takes. -/
structure Monitor.Uncrowded (patch : Patch ν) (options : CompileOptions) (start : Nat)
    (blocks : List (Block ν)) (monitor : Monitor) : Prop where
  ports : ∀ {position port : Nat} {id spec wait}, monitor.order[position]? = some id →
    patch.OutputAt id port spec → spec.type.Timed → monitor.compensation? id = some wait →
    ∀ events ∈ departures start options.blockSize wait blocks position port,
      events.length ≤ options.eventCapacity
  edges : ∀ {id edge wait rest} {position : Nat}, patch.EventEdge id edge →
    monitor.order[position]? = some edge.source → monitor.compensation? edge.source = some wait →
    monitor.routeCompensation? edge.source edge.dest = some rest →
    ∀ (index : Nat) block, blocks[index]? = some block → block.before.monitor.isFailed edge.dest = false →
      (arriving start options.blockSize rest
        (departures start options.blockSize wait blocks position edge.sourcePort) index).length ≤
          options.eventCapacity

theorem Monitor.Uncrowded.leaves {monitor : Monitor} (uncrowded : monitor.Uncrowded patch options start blocks)
    {id : EdgeId} {edge : Edge} {position wait : Nat} (event : patch.EventEdge id edge)
    (source : monitor.order[position]? = some edge.source)
    (waits : monitor.compensation? edge.source = some wait) :
    ∀ events ∈ departures start options.blockSize wait blocks position edge.sourcePort,
      events.length ≤ options.eventCapacity := by
  obtain ⟨_, spec, atPort, timed⟩ := event
  exact uncrowded.ports source atPort timed waits

structure Plan.RunsOn (patch : Patch ν) (options : CompileOptions) (placed : List (Placed ν))
    (survey : Survey) (latency : Nat → Nat) (start : Nat) (alignment : Alignment) (blocks : List (Block ν))
    (plan : Plan ν) : Prop where
  serves : plan.Serves patch options placed survey
  compensation : plan.monitor.latencies.compensation = alignment.values
  links : plan.monitor.latencies.links = alignment.links
  aligned : survey.graph.Aligned latency alignment
  within : ∀ position, latency position ≤ (declaredAt placed).getD position 0
  continued : Continued patch options placed survey start alignment plan.layout blocks

namespace Plan.RunsOn

variable {latency : Nat → Nat} {plan : Plan ν}
  (runs : plan.RunsOn patch options placed survey latency start alignment blocks)
include runs

theorem compensation?_eq {position : Nat} {place : Placed ν} (item : placed[position]? = some place) :
    plan.monitor.compensation? place.id = alignment.values[position]? := by
  rw [Monitor.compensation?, runs.serves.position?_eq item, runs.compensation]
  rfl

theorem routeCompensation?_eq {position producer : Nat} {place origin : Placed ν}
    (item : placed[position]? = some place) (source : placed[producer]? = some origin) :
    plan.monitor.routeCompensation? origin.id place.id =
      (survey.graph.link producer position).bind (alignment.links[·]?) := by
  rw [runs.serves.routeCompensation?_eq item source, runs.links]

theorem way {id : EdgeId} {edge : Edge} {station : Station} {position producer : Nat} {place : Placed ν}
    {type : PortType} {feed : Feed} (event : patch.EventEdge id edge)
    (routed : edge.Routed placed survey plan.layout.stations station position producer type feed)
    (item : placed[position]? = some place) (dest : place.id = edge.dest) :
    type.Timed ∧ plan.monitor.order[producer]? = some edge.source ∧ ∃ wait link rest,
      alignment.values[producer]? = some wait ∧ plan.monitor.compensation? edge.source = some wait ∧
      survey.graph.link producer position = some link ∧ alignment.links[link]? = some rest ∧
      plan.monitor.routeCompensation? edge.source edge.dest = some rest := by
  obtain ⟨_, spec, atPort, timed⟩ := event
  obtain ⟨origin, source, same⟩ := routed.source
  obtain ⟨upstream, atUpstream, output, _⟩ := routed.output
  have typed := (runs.serves.stations.output_iff source atUpstream).mpr ⟨spec, same ▸ atPort, rfl⟩
  rw [output] at typed
  cases typed
  obtain ⟨link, atLink⟩ := runs.serves.stations.surveyed.inOrder.exists_link routed.consumer
  obtain ⟨wait, rest, waits, left, _⟩ := runs.aligned.balance atLink
  refine ⟨timed, ?_, wait, link, rest, waits, ?_, atLink, left, ?_⟩
  · rw [runs.serves.order, List.getElem?_map, source, Option.map_some, same]
  · rw [← same, runs.compensation?_eq source, waits]
  · rw [← same, ← dest, runs.routeCompensation?_eq item source, atLink, Option.bind_some, left]

theorem ports_uncrowded (fits : ∀ sofar block, sofar ++ [block] <+: blocks →
    block.Fits options.format start alignment sofar) {position port : Nat} {id : NodeId} {spec : PortSpec}
    {wait : Nat} (found : plan.monitor.order[position]? = some id) (atPort : patch.OutputAt id port spec)
    (timed : spec.type.Timed) (waits : plan.monitor.compensation? id = some wait) :
    ∀ events ∈ departures start options.format.blockSize wait blocks position port,
      events.length ≤ options.format.eventCapacity := by
  have serves := runs.serves
  intro events member
  obtain ⟨sofar, block, extends_, rfl⟩ := mem_departures.mp member
  unfold Block.departing
  cases alive : block.after.monitor.isFailedAt position with
  | true => exact Nat.zero_le _
  | false =>
    obtain ⟨place, item, rfl⟩ := serves.place_at found
    obtain ⟨station, atStation, _⟩ := serves.stations.stationed item
    have typed := (serves.stations.output_iff item atStation).mpr ⟨spec, atPort, rfl⟩
    rw [runs.compensation?_eq item] at waits
    have length := serves.stations.wait_le atStation waits runs.aligned runs.within
    have few := (fits sofar block extends_).outputs ((runs.continued sofar block extends_).1 ▸ atStation) typed
      timed alive waits
    rwa [Nat.min_eq_left length] at few

/-- Where every block fits its lines, nothing is crowded. -/
theorem uncrowded (fits : ∀ sofar block, sofar ++ [block] <+: blocks →
    block.Fits options.format start alignment sofar) :
    plan.monitor.Uncrowded patch options start blocks := by
  have serves := runs.serves
  have surveyed := serves.stations.surveyed
  refine ⟨runs.ports_uncrowded fits, ?_⟩
  intro id edge wait rest producer event source waits left index block atIndex running
  obtain ⟨sofar, rfl, extends_⟩ : ∃ sofar : List (Block ν), sofar.length = index ∧ sofar ++ [block] <+: blocks :=
    ⟨_, take_concat_prefix atIndex⟩
  obtain ⟨same, _, _, continues⟩ := runs.continued sofar block extends_
  obtain ⟨position, _, place, station, _, feed, item, dest, atStation, _, _, _, again, type, routed⟩ :=
    serves.stations.exists_routed event.1
  obtain ⟨timed, there, _, link, _, waits', compensated, atLink, left', balanced⟩ :=
    runs.way event routed item dest
  -- The monitor names the producer by its id, the route by its position.
  obtain rfl : again = producer := by
    obtain ⟨first, atFirst, firstIs⟩ := serves.place_at source
    obtain ⟨second, atSecond, secondIs⟩ := serves.place_at there
    exact surveyed.placement.position_unique atSecond atFirst (secondIs.trans firstIs.symm)
  rw [waits] at compensated
  cases compensated
  rw [left] at balanced
  cases balanced
  have few : ∀ events ∈ departures start options.format.blockSize wait blocks again edge.sourcePort,
      events.length ≤ options.format.eventCapacity := by
    obtain ⟨_, spec, atPort, type⟩ := event
    exact runs.ports_uncrowded fits source atPort type waits
  cases routed.reads with
  -- An edge without a line has nothing left to wait, and reads what the port let go.
  | shared _ idle =>
    have none := surveyed.rest_eq_zero runs.aligned runs.within routed.consumer atLink left' fun fans =>
      idle fans timed.delayable
    rw [none]
    exact (congrArg List.length (arriving_zero_departures extends_)).le.trans
      (few _ (mem_departures.mpr ⟨sofar, block, extends_, rfl⟩))
  | @own link' atLink' _ among =>
    rw [atLink] at atLink'
    cases atLink'
    obtain ⟨upstream, atUpstream, output, lane⟩ := routed.output
    rw [← dest, continues.serves.isFailed_eq item] at running
    have fits := (fits sofar block extends_).lines (same ▸ atStation) among timed running left'
    rwa [(runs.continued.line_same runs.aligned runs.within surveyed atUpstream output timed lane atLink rfl waits'
      left' few extends_).perm.length_eq] at fits

theorem fits (uncrowded : plan.monitor.Uncrowded patch options start blocks) {sofar : List (Block ν)}
    {block : Block ν} (extends_ : sofar ++ [block] <+: blocks) :
    block.Fits options.format start alignment sofar := by
  have serves := runs.serves
  have surveyed := serves.stations.surveyed
  obtain ⟨same, _, _, continues⟩ := runs.continued sofar block extends_
  refine ⟨?_, ?_⟩
  · intro position port station type wait found typed timed alive waits
    rw [same] at found
    obtain ⟨place, item, _⟩ := serves.stations.place_of found
    obtain ⟨spec, atPort, rfl⟩ := (serves.stations.output_iff item found).mp typed
    have order : plan.monitor.order[position]? = some place.id := by
      rw [serves.order, List.getElem?_map, item, Option.map_some]
    rw [Nat.min_eq_left (serves.stations.wait_le found waits runs.aligned runs.within)]
    have few := uncrowded.ports order atPort timed ((runs.compensation?_eq item).trans waits)
      _ (mem_departures.mpr ⟨sofar, block, extends_, rfl⟩)
    rw [Block.departing, if_neg (by simp [alive])] at few
    exact few
  · intro position station line rest found among timed running left
    rw [same] at found
    -- A line belongs to one edge, and the monitor knows what is left for it by the ids of its ends.
    obtain ⟨id, edge, producer, place, origin, upstream, atEdge, item, dest, source, sourceIs, atUpstream, output,
      lane, atLink, capacity⟩ := serves.stations.line_edge found among
    obtain ⟨spec, atPort, type⟩ := (serves.stations.output_iff source atUpstream).mp output
    have event : patch.EventEdge id edge := ⟨atEdge, spec, sourceIs ▸ atPort, type.symm ▸ timed⟩
    have order : plan.monitor.order[producer]? = some edge.source := by
      rw [serves.order, List.getElem?_map, source, Option.map_some, sourceIs]
    obtain ⟨wait, rest', waits, left', _⟩ := runs.aligned.balance atLink
    rw [left] at left'
    cases left'
    have compensated : plan.monitor.compensation? edge.source = some wait := by
      rw [← sourceIs, runs.compensation?_eq source, waits]
    have balanced : plan.monitor.routeCompensation? edge.source edge.dest = some rest := by
      rw [← sourceIs, ← dest, runs.routeCompensation?_eq item source, atLink, Option.bind_some, left]
    have alive : block.before.monitor.isFailed edge.dest = false := by
      rw [← dest, continues.serves.isFailed_eq item, running]
    have few := uncrowded.edges event order compensated balanced sofar.length block
      (getElem?_of_starts extends_ List.getElem?_concat_length) alive
    rwa [(runs.continued.line_same runs.aligned runs.within surveyed atUpstream output timed lane atLink capacity
      waits left (uncrowded.leaves event order compensated) extends_).perm.length_eq]

theorem hears (uncrowded : plan.monitor.Uncrowded patch options start blocks) {id : EdgeId} {edge : Edge}
    (event : patch.EventEdge id edge) {sofar : List (Block ν)} {block : Block ν}
    (extends_ : sofar ++ [block] <+: blocks) (running : block.before.monitor.isFailed edge.dest = false) :
    ∃ position wait rest signal, plan.monitor.order[position]? = some edge.source ∧
      plan.monitor.compensation? edge.source = some wait ∧
      plan.monitor.routeCompensation? edge.source edge.dest = some rest ∧
      block.Reads patch plan.monitor.order id edge signal ∧
      SameBy Event.frame signal.events (arriving start options.blockSize rest
        (departures start options.blockSize wait blocks position edge.sourcePort) sofar.length) := by
  have serves := runs.serves
  have surveyed := serves.stations.surveyed
  obtain ⟨same, clock, losses, continues⟩ := runs.continued sofar block extends_
  obtain ⟨position, producer, station, type, feed, lane, atDest, _, found, routed, alive, atLane, reads⟩ :=
    continues.made.reads continues.serves event.1 running
  rw [continues.serves.order, ← serves.order] at atDest reads
  rw [same] at routed found
  obtain ⟨place, item, dest⟩ := serves.place_at atDest
  obtain ⟨timed, source, wait, link, rest, waits, compensated, atLink, left, balanced⟩ :=
    runs.way event routed item dest
  obtain ⟨upstream, atUpstream, output, base⟩ := routed.output
  have few := uncrowded.leaves event source compensated
  refine ⟨producer, wait, rest, lane.buffer, source, compensated, balanced, reads, ?_⟩
  -- An edge without a line of its own shows what the port let go, and nothing is left for it.
  cases routed.reads with
  | shared shares idle =>
    have none := surveyed.rest_eq_zero runs.aligned runs.within routed.consumer atLink left fun fans =>
      idle fans timed.delayable
    rw [none, arriving_zero_departures extends_]
    rw [shares, base] at atLane
    rw [← Block.relayed_eq atLane]
    exact continues.relayed_same runs.aligned runs.within (same ▸ atUpstream) output timed waits
      (few _ (mem_departures.mpr ⟨sofar, block, extends_, rfl⟩))
  | @own link' atLink' _ among =>
    rw [atLink] at atLink'
    cases atLink'
    obtain ⟨_, _, published, _, delivers⟩ := continues.line (same ▸ found) among timed alive
    rw [left] at published
    cases published
    obtain ⟨item, there, events⟩ := delivers.events
    rw [atLane] at there
    cases there
    have fits := (runs.fits uncrowded extends_).lines (same ▸ found) among timed alive left
    rw [List.take_of_length_le fits] at events
    exact events.trans (runs.continued.line_same runs.aligned runs.within surveyed atUpstream output timed base
      atLink rfl waits left few extends_)

end Plan.RunsOn

/-! ## Compiled plans -/

/-- A steady run goes on under the alignment that its plan was compiled with. -/
theorem CompiledFrom.carries {plan : Plan ν} (compiled : CompiledFrom patch options placed survey plan)
    (run : Run Plan.Tended plan blocks last) (steady : plan.Steady options.blockSize start blocks) :
    ∃ alignment, survey.graph.align survey.intrinsic = .ok alignment ∧
      Run.Carries patch options placed survey start alignment plan blocks last ∧
      plan.RunsOn patch options placed survey (survey.intrinsic.getD · 0) start alignment blocks := by
  have serves := compiled.serves
  obtain ⟨_, _, _, _, _, assembled⟩ := compiled.assembled
  obtain ⟨alignment, aligns, compensation, links⟩ := assembled.published
  have carries := run.carries compiled.checks.blockSize serves
    (by rw [assembled.graph, assembled.intrinsic, aligns]) ⟨rfl, compensation, links⟩
    (.nil serves.ready assembled.lane_eq) assembled.overflows steady
  exact ⟨alignment, aligns, carries, serves, compensation, links,
    LatencyGraph.align_aligned compiled.surveyed.inOrder aligns, compiled.surveyed.intrinsic_le,
    carries.continued⟩

/-- While the nodes of a compiled plan keep their latencies, no event is lost exactly
if no port and no edge is crowded. Then every consumer that runs reads every event
that its producer's port lets go, and reads it when it is due. -/
theorem lossless_unless_crowded {plan : Plan ν} (compiled : compile patch options = .ok (.ok plan))
    (run : Run Plan.Tended plan blocks last) (steady : plan.Steady options.blockSize start blocks) :
    (last.monitor.overflows = 0 ↔ plan.monitor.Uncrowded patch options start blocks) ∧
    (last.monitor.overflows = 0 → ∀ id edge, patch.EventEdge id edge →
      ∀ (index : Nat) block, blocks[index]? = some block →
      block.before.monitor.isFailed edge.dest = false →
      ∃ position wait rest signal, plan.monitor.order[position]? = some edge.source ∧
        plan.monitor.compensation? edge.source = some wait ∧
        plan.monitor.routeCompensation? edge.source edge.dest = some rest ∧
        block.Reads patch plan.monitor.order id edge signal ∧
        SameBy Event.frame signal.events (arriving start options.blockSize rest
          (departures start options.blockSize wait blocks position edge.sourcePort) index)) := by
  obtain ⟨placed, survey, origin⟩ := compile_plan compiled
  obtain ⟨alignment, _, carries, runs⟩ := origin.carries run steady
  have lossless : last.monitor.overflows = 0 ↔ plan.monitor.Uncrowded patch options start blocks :=
    carries.lossless.trans ⟨runs.uncrowded, fun uncrowded sofar block => runs.fits uncrowded⟩
  refine ⟨lossless, fun nothing id edge event index block found running => ?_⟩
  obtain ⟨length, extends_⟩ := take_concat_prefix found
  have heard := runs.hears (lossless.mp nothing) event extends_ running
  rwa [length] at heard

/-! ## A small patch -/

/-- A node that fires triggers at given frames, block after block. It may have further
outputs, which stay silent. -/
structure Ticker where
  beats : List (List UInt32)
  latency : Nat
  others : List PortSpec := []
  deriving DecidableEq

instance : Node Ticker where
  name _ := "ticker"
  inputs _ := [.trigger "in"]
  outputs ticker := .trigger "out" :: ticker.others
  latency ticker := ticker.latency
  process _ ticker ports :=
    match ports.triggerOut? 0 with
    | none => .ok (.noOutput, ticker, ports)
    | some list =>
        let events := ((ticker.beats.headD []).map fun frame => ⟨frame, 0⟩).take list.capacity
        .ok (.done, { ticker with beats := ticker.beats.tail }, ports.put 0 (.trigger { list with events }))

theorem Ticker.abides : Node.Abides fun _ : Ticker => True := by
  intro context node next ports reply outcome _ answer
  refine ⟨?_, trivial⟩
  simp only [Node.process] at answer
  split at answer
  · cases answer
    exact .refl
  · rename_i list found
    cases answer
    exact .single (.triggersOut _ found (List.length_take_le _ _))

def duet (beats : List (List UInt32)) (late : Nat) : Patch Ticker where
  nodes := #[some ⟨beats, 0, []⟩, some ⟨[], late, []⟩, some ⟨[], 0, [.audio "out" 1]⟩]
  edges := #[some ⟨⟨0⟩, 0, ⟨2⟩, 0, 1⟩, some ⟨⟨1⟩, 0, ⟨2⟩, 0, 1⟩]
  sink := none

def drumroll : Patch Ticker := duet [[1, 1], [0, 0]] 3

def Call.Calm (plan : Plan Ticker) (size : Nat) (call : Call Ticker) : Prop :=
  (call.fails = false → plan.monitor.latencies.intrinsic[call.position]? = some (Node.latency call.next)) ∧
    ∀ signal ∈ call.written.toList, ∀ event ∈ signal.events, event.frame.toNat < size

instance (plan : Plan Ticker) (size : Nat) (call : Call Ticker) : Decidable (call.Calm plan size) :=
  inferInstanceAs (Decidable (_ ∧ _))

theorem drumroll_renders {capacity lost : Nat} (answered :
    ∃ plan, compile drumroll { blockSize := 4, eventCapacity := capacity } = .ok (.ok plan) ∧
    ∃ first, Engine.new.render plan (.start 48000 4) = .ok first ∧
    ∃ second, first.2.1.render first.2.2.1 first.2.2.2 = .ok second ∧
      (∀ call ∈ first.1 ++ second.1, call.Calm plan 4) ∧ first.2.2.1.monitor.isFailed ⟨2⟩ = false ∧
      second.2.2.1.monitor.overflows = lost ∧ second.2.2.1.monitor.isFailed ⟨0⟩ = false) :
    ∃ (plan : Plan Ticker) (first second : Block Ticker),
      compile drumroll { blockSize := 4, eventCapacity := capacity } = .ok (.ok plan) ∧
      Run Plan.Tended plan [first, second] second.after ∧ plan.Steady 4 0 [first, second] ∧
      (∀ position port, ∀ events ∈ emissions [first, second] position port, events.length ≤ capacity) ∧
      second.before.monitor.isFailed ⟨2⟩ = false ∧ second.after.monitor.overflows = lost ∧
      second.after.monitor.isFailed ⟨0⟩ = false := by
  obtain ⟨plan, compiled, ⟨calls, engine, middle, moved⟩, renders, ⟨others, rendered, after, further⟩, again, calm,
    running, overflows, alive⟩ := answered
  let first : Block Ticker := ⟨.new, plan, .start 48000 4, calls, engine, middle, moved⟩
  let second : Block Ticker := ⟨engine, middle, moved, others, rendered, after, further⟩
  have run : Run Plan.Tended plan [first, second] second.after :=
    @Run.render _ _ _ _ [first] middle second (@Run.render _ _ _ _ [] plan first .start (.refl _) renders)
      (.refl _) again
  obtain ⟨placed, survey, origin⟩ := compile_plan compiled
  obtain ⟨_, _, typed⟩ := run.typed Ticker.abides (fun tended => .adjusted tended.toAdjusted)
    (fun _ _ _ _ _ => trivial) origin.serves (origin.keeps fun _ _ _ => trivial)
  have calmAt : ∀ block ∈ [first, second], ∀ call ∈ block.calls, call.Calm plan 4 := by
    intro block member call among
    refine calm call (List.mem_append.mpr ?_)
    rcases List.mem_pair.mp member with rfl | rfl
    · exact .inl among
    · exact .inr among
  have advanced : (Context.start 48000 4).advance = .ok moved := by
    obtain ⟨_, _, _, advanced, _⟩ := Engine.render_spec origin.serves.ready renders
      fun call member => (typed first (by simp) call member).orderly _
    exact advanced
  have clock : ∀ (index : Nat) block, [first, second][index]? = some block →
      block.context.clock = .ok (0 + index * 4) := by
    intro index block found
    match index, found with
    | 0, found =>
      cases found
      rfl
    | 1, found =>
      cases found
      cases advanced
      rfl
  have steady : plan.Steady 4 0 [first, second] :=
    ⟨clock, typed, fun block member call among => (calmAt block member call among).1,
      fun block member call among signal cell => (calmAt block member call among).2 signal
        (Array.mem_toList_iff.mpr cell)⟩
  obtain ⟨_, _, carries, _⟩ := origin.carries run steady
  exact ⟨plan, first, second, compiled, run, steady,
    fun position port => (carries.transits.emits position port).few, running, overflows, alive⟩

/-- Beats get lost although no list overflows where they are fired. -/
theorem drumroll_overflows : ∃ (plan : Plan Ticker) (first second : Block Ticker),
    compile drumroll { blockSize := 4, eventCapacity := 2 } = .ok (.ok plan) ∧
    Run Plan.Tended plan [first, second] second.after ∧ plan.Steady 4 0 [first, second] ∧
    (∀ position port, ∀ events ∈ emissions [first, second] position port, events.length ≤ 2) ∧
    second.before.monitor.isFailed ⟨2⟩ = false ∧ second.after.monitor.overflows = 2 ∧
    second.after.monitor.isFailed ⟨0⟩ = false :=
  drumroll_renders (by decide +kernel)

theorem drumroll_lossless : ∃ (plan : Plan Ticker) (first second : Block Ticker),
    compile drumroll { blockSize := 4, eventCapacity := 4 } = .ok (.ok plan) ∧
    Run Plan.Tended plan [first, second] second.after ∧
    plan.monitor.Uncrowded drumroll { blockSize := 4, eventCapacity := 4 } 0 [first, second] ∧
    ∃ position wait rest signal, plan.monitor.order[position]? = some ⟨0⟩ ∧
      plan.monitor.compensation? ⟨0⟩ = some wait ∧ plan.monitor.routeCompensation? ⟨0⟩ ⟨2⟩ = some rest ∧
      second.Reads drumroll plan.monitor.order ⟨0⟩ ⟨⟨0⟩, 0, ⟨2⟩, 0, 1⟩ signal ∧
      SameBy Event.frame signal.events
        (arriving 0 4 rest (departures 0 4 wait [first, second] position 0) 1) := by
  obtain ⟨plan, first, second, compiled, run, steady, _, running, nothing, _⟩ :=
    @drumroll_renders 4 0 (by decide +kernel)
  obtain ⟨lossless, heard⟩ := lossless_unless_crowded compiled run steady
  have event : drumroll.EventEdge ⟨0⟩ ⟨⟨0⟩, 0, ⟨2⟩, 0, 1⟩ := ⟨rfl, .trigger "out", ⟨_, rfl, rfl⟩, .inr rfl⟩
  exact ⟨plan, first, second, compiled, run, lossless.mp nothing,
    heard nothing _ _ event 1 second rfl running⟩

end Patchbay
