import Patchbay.Proofs.Plan.Misaligned
import Patchbay.Proofs.Render.Arrival
import Patchbay.Proofs.Render.Clamps

/-! Delay lines are long enough.

Whatever is rendered, reported and refreshed in whatever order, as long as no node
reports more than it declares, the published delays are those of an alignment of
latencies that are declared, and such delays fit.
-/

set_option autoImplicit false

namespace Patchbay

variable {ν : Type} [Node ν] {patch : Patch ν} {options : CompileOptions} {placed : List (Placed ν)}
  {survey : Survey}

/-- One step of a plan in use, in which no node reports more than it declares. -/
inductive Plan.Step (patch : Patch ν) (plan : Plan ν) : Plan ν → Prop where
  | render {engine rendered : Engine} {context moved : Context} {calls : List (Call ν)} {after : Plan ν} :
      engine.render plan context = .ok (calls, rendered, after, moved) →
      (∀ call ∈ calls, call.fails = false → ∀ id, plan.monitor.order[call.position]? = some id →
        Node.latency call.next ≤ patch.declared id) →
      Step patch plan after
  | report {position samples : Nat} {changed : Bool} {latencies : Latencies} :
      plan.monitor.latencies.report position samples = .ok (changed, latencies) →
      (∀ id, plan.monitor.order[position]? = some id → samples ≤ patch.declared id) →
      Step patch plan { plan with monitor := { plan.monitor with latencies } }
  | refresh {report : RefreshReport} {monitor : Monitor} : plan.monitor.refresh = .ok (report, monitor) →
      Step patch plan { plan with monitor }
  | refreshIfDirty {report : Option RefreshReport} {monitor : Monitor} :
      plan.monitor.refreshIfDirty = .ok (report, monitor) → Step patch plan { plan with monitor }
  | change (change : ν → ν) : Step patch plan (plan.mapNodes change)
  | reset : Step patch plan plan.reset

/-- The published delays are those of latencies within what the nodes declare, and
the counters tell about them. -/
structure Plan.Heeds (patch : Patch ν) (placed : List (Placed ν)) (survey : Survey) (plan : Plan ν) : Prop
    extends plan.Charts patch placed survey where
  room : plan.monitor.latencies.linkCapacity = survey.linkCapacity.toArray
  size : plan.monitor.latencies.intrinsic.size = placed.length
  declared : ∀ (position : Nat) latency, plan.monitor.latencies.intrinsic[position]? = some latency →
    latency ≤ (declaredAt placed).getD position 0
  published : ∃ latency alignment, survey.graph.Aligned latency alignment ∧
    (∀ position, latency position ≤ (declaredAt placed).getD position 0) ∧
    plan.monitor.latencies.compensation = alignment.values ∧ plan.monitor.latencies.links = alignment.links
  clamps : plan.monitor.clamps = 0
  misaligned : plan.monitor.misaligned =
    countMisaligned plan.monitor.latencies.links plan.monitor.latencies.linkCapacity

namespace Plan.Heeds

variable {plan after : Plan ν}

theorem compiled (compiled : CompiledFrom patch options placed survey plan) :
    plan.Heeds patch placed survey := by
  obtain ⟨_, _, _, _, _, assembled⟩ := compiled.assembled
  obtain ⟨alignment, aligns, compensation, links⟩ := assembled.published
  have surveyed := compiled.surveyed
  have size : plan.monitor.latencies.intrinsic.size = placed.length := by
    rw [assembled.intrinsic, surveyed.intrinsic, List.size_toArray, List.length_map]
  refine ⟨compiled.serves.toCharts, assembled.linkCapacity, size, ?_,
    ⟨_, alignment, LatencyGraph.align_aligned surveyed.inOrder aligns, surveyed.intrinsic_le, compensation, links⟩,
    assembled.clamps, assembled.misaligned⟩
  intro position latency found
  have bound := surveyed.intrinsic_le position
  rw [assembled.intrinsic] at found
  rwa [Array.getD_eq_getD_getElem?, found, Option.getD_some] at bound

variable (heeds : plan.Heeds patch placed survey)
include heeds

theorem spans {position : Nat} {station : Station} (found : plan.layout.stations[position]? = some station) :
    station.Spans plan.monitor.latencies.compensation plan.monitor.latencies.links position := by
  obtain ⟨latency, alignment, aligned, within, compensation, links⟩ := heeds.published
  have stations := heeds.stations
  refine ⟨fun wait waits => stations.wait_le found (compensation ▸ waits) aligned within, ?_⟩
  intro line among rest left
  obtain ⟨_, _, _, _, _, _, _, _, _, _, _, _, _, _, atLink, capacity⟩ := stations.line_edge found among
  rw [capacity]
  exact stations.surveyed.rest_le_worst aligned within atLink (links ▸ left)

theorem told (layout : after.layout = plan.layout)
    (told : plan.monitor.Told (fun position latency => ∀ id, plan.monitor.order[position]? = some id →
      latency ≤ patch.declared id) after.monitor) : after.Heeds patch placed survey := by
  obtain ⟨latency, alignment, aligned, within, compensation, links⟩ := heeds.published
  refine ⟨⟨layout ▸ heeds.stations, told.order.trans heeds.order, told.graph.trans heeds.graph⟩,
    told.linkCapacity.trans heeds.room, told.size.trans heeds.size, ?_,
    ⟨latency, alignment, aligned, within, told.compensation.trans compensation, told.links.trans links⟩,
    told.clamps.trans heeds.clamps, ?_⟩
  · intro position latency found
    rcases told.intrinsic position latency found with earlier | new
    · exact heeds.declared position latency earlier
    · have inside : position < placed.length := by
        rw [← heeds.size, ← told.size]
        exact (Array.getElem?_eq_some_iff.mp found).1
      have item := List.getElem?_eq_getElem inside
      rw [Mirrors.declared_agrees heeds.stations.surveyed.placement item]
      exact new _ (by rw [heeds.order, List.getElem?_map, item, Option.map_some])
  · rw [told.misaligned, told.links, told.linkCapacity, heeds.misaligned]

theorem publish (dirty : Bool) {alignment : Alignment}
    (aligns : plan.monitor.graph.align plan.monitor.latencies.intrinsic = .ok alignment) :
    ({ plan with monitor := { plan.monitor with
      latencies := { plan.monitor.latencies with
        compensation := alignment.values, links := alignment.links, dirty }
      misaligned := countMisaligned alignment.links plan.monitor.latencies.linkCapacity } } : Plan ν).Heeds
        patch placed survey := by
  rw [heeds.graph] at aligns
  refine ⟨⟨heeds.stations, heeds.order, heeds.graph⟩, heeds.room, heeds.size, heeds.declared,
    ⟨_, alignment, LatencyGraph.align_aligned heeds.stations.surveyed.inOrder aligns, ?_, rfl, rfl⟩,
    heeds.clamps, rfl⟩
  intro position
  rw [Array.getD_eq_getD_getElem?]
  cases found : plan.monitor.latencies.intrinsic[position]? with
  | none => exact Nat.zero_le _
  | some latency => exact heeds.declared position latency found

theorem step (step : plan.Step patch after) : after.Heeds patch placed survey := by
  cases step with
  | render renders reports =>
    obtain ⟨layout, told⟩ := Engine.render_told (fun position latency => ∀ id,
      plan.monitor.order[position]? = some id → latency ≤ patch.declared id) (fun _ _ => heeds.spans) renders reports
    exact heeds.told layout told
  | report answer allowed => exact heeds.told rfl (Monitor.told_report answer allowed)
  | refresh answer =>
    obtain ⟨alignment, aligns, rfl⟩ := Monitor.refresh_spec answer
    exact heeds.publish _ aligns
  | refreshIfDirty answer =>
    rcases Monitor.refreshIfDirty_cases answer with ⟨_, alignment, aligns, rfl⟩ | ⟨_, rfl⟩
    · exact heeds.publish false aligns
    · exact heeds
  | change | reset => exact { heeds with }

theorem steps (steps : Relation.ReflTransGen (Plan.Step patch) plan after) :
    after.Heeds patch placed survey := by
  induction steps with
  | refl => exact heeds
  | tail _ step ih => exact ih.step step

end Plan.Heeds

/-! ## Bounds -/

theorem Alignment.arrivalAt_le_maxArrival (alignment : Alignment) (position : Nat) :
    alignment.arrivalAt position ≤ alignment.maxArrival := by
  rw [arrivalAt, maxArrival, Array.getD_eq_getD_getElem?, ← Array.foldl_toList]
  cases found : alignment.arrival[position]? with
  | none => exact Nat.zero_le _
  | some arrival =>
    exact (foldl_max_spec _ 0).2.1 _ (Array.mem_toList_iff.mpr (Array.mem_of_getElem? found))

namespace Surveyed

variable {latency : Nat → Nat} {alignment : Alignment} (surveyed : Surveyed patch placed survey)
  (aligned : survey.graph.Aligned latency alignment)
  (within : ∀ position, latency position ≤ (declaredAt placed).getD position 0)
include surveyed aligned within

theorem values_le_maxArrival {wait : Nat} (member : wait ∈ alignment.values) :
    wait ≤ survey.worst.maxArrival := by
  obtain ⟨position, inside, found⟩ := Array.mem_iff_getElem.mp member
  have waits : alignment.values[position]? = some wait := Array.getElem?_eq_some_iff.mpr ⟨inside, found⟩
  by_cases unread : survey.graph.consumersOf position = []
  · have idle := aligned.idle (aligned.values_size ▸ inside) unread
    rw [waits] at idle
    cases idle
    exact Nat.zero_le _
  · obtain ⟨consumer, among⟩ := List.exists_mem_of_ne_nil _ unread
    exact ((surveyed.wait_le_capacity aligned within among waits).trans
      (Survey.delayCapacity_le among)).trans (survey.worst.arrivalAt_le_maxArrival consumer)

theorem links_le_maxArrival {rest : Nat} (member : rest ∈ alignment.links) : rest ≤ survey.worst.maxArrival := by
  obtain ⟨link, inside, found⟩ := Array.mem_iff_getElem.mp member
  have left : alignment.links[link]? = some rest := Array.getElem?_eq_some_iff.mpr ⟨inside, found⟩
  rw [aligned.links_size] at inside
  have listed := List.getElem?_eq_getElem inside
  have atLink := surveyed.inOrder.link_of_getElem?_links listed
  exact (surveyed.rest_le_worst aligned within atLink left).trans (survey.worst.arrivalAt_le_maxArrival _)

end Surveyed

theorem Plan.Charts.declared_eq {plan : Plan ν} (charts : plan.Charts patch placed survey) :
    (plan.monitor.order.map patch.declared).toArray = declaredAt placed := by
  rw [charts.order, declaredAt, List.map_map]
  congr 1
  refine List.map_congr_left fun place member => ?_
  obtain ⟨position, item⟩ := List.mem_iff_getElem?.mp member
  have agrees := Mirrors.declared_agrees charts.stations.surveyed.placement item
  rw [Function.comp_apply, ← agrees, declaredAt, Array.getD_eq_getD_getElem?, List.getElem?_toArray, List.getElem?_map,
    item]
  rfl

/-- However a compiled plan is rendered, told of latencies and refreshed, while no
node reports more than it declares: every published delay fits the line that it is
for and the bound of the declared latencies, none is ever cut, and the misaligned
links are those that have a delay left and carry control only. -/
theorem delays_fit {plan last : Plan ν} (compiled : compile patch options = .ok (.ok plan))
    (steps : Relation.ReflTransGen (Plan.Step patch) plan last) :
    (∀ (position : Nat) station wait, last.layout.stations[position]? = some station →
      last.monitor.latencies.compensation[position]? = some wait → wait ≤ station.delayCapacity) ∧
    (∀ station ∈ last.layout.stations, ∀ line ∈ station.lines, ∀ rest,
      last.monitor.latencies.links[line.link]? = some rest → rest ≤ line.capacity) ∧
    (∃ bound, last.monitor.graph.worstCaseBound (last.monitor.order.map patch.declared).toArray = .ok bound ∧
      (∀ wait ∈ last.monitor.latencies.compensation, wait ≤ bound) ∧
      ∀ rest ∈ last.monitor.latencies.links, rest ≤ bound) ∧
    last.monitor.clamps = 0 ∧
    ∃ pairs : List (NodeId × NodeId), pairs.Nodup ∧ last.monitor.misaligned = pairs.length ∧
      ∀ source dest, (source, dest) ∈ pairs ↔ patch.ControlOnly source dest ∧
        ∃ rest, last.monitor.routeCompensation? source dest = some rest ∧ 0 < rest := by
  obtain ⟨placed, survey, origin⟩ := compile_plan compiled
  have heeds := (Plan.Heeds.compiled origin).steps steps
  have surveyed := heeds.stations.surveyed
  obtain ⟨latency, alignment, aligned, within, compensation, links⟩ := heeds.published
  refine ⟨fun position station wait found => (heeds.spans found).outputs wait, ?_, ?_, heeds.clamps, ?_⟩
  · intro station member
    obtain ⟨position, found⟩ := List.mem_iff_getElem?.mp member
    exact (heeds.spans found).lines
  · refine ⟨survey.worst.maxArrival, ?_, ?_, ?_⟩
    · rw [heeds.declared_eq, heeds.graph, LatencyGraph.worstCaseBound, surveyed.surveys]
      rfl
    · exact fun wait member => surveyed.values_le_maxArrival aligned within (compensation ▸ member)
    · exact fun rest member => surveyed.links_le_maxArrival aligned within (links ▸ member)
  · obtain ⟨pairs, distinct, count, members⟩ := surveyed.misaligned_pairs aligned within
    refine ⟨pairs, distinct, ?_, fun source dest => (members source dest).trans ?_⟩
    · rw [heeds.misaligned, heeds.room, links, count]
    · refine and_congr_right fun _ => ?_
      constructor
      · rintro ⟨producer, consumer, link, rest, origin, place, atSource, rfl, atDest, rfl, atLink, left, positive⟩
        refine ⟨rest, ?_, positive⟩
        rw [heeds.routeCompensation?_eq atDest atSource, atLink, Option.bind_some, links, left]
      · rintro ⟨rest, left, positive⟩
        obtain ⟨producer, consumer, link, origin, place, atSource, source, atDest, dest, atLink, left⟩ :=
          heeds.exists_link left
        exact ⟨producer, consumer, link, rest, origin, place, atSource, source, atDest, dest, atLink,
          links ▸ left, positive⟩

theorem echo_shortened : ∃ plan last : Plan Builtin, compile echo { blockSize := 4 } = .ok (.ok plan) ∧
    Relation.ReflTransGen (Plan.Step echo) plan last ∧
    plan.monitor.routeCompensation? ⟨0⟩ ⟨2⟩ = some 2 ∧ last.monitor.routeCompensation? ⟨0⟩ ⟨2⟩ = some 1 := by
  obtain ⟨plan, compiled, ⟨_, latencies⟩, reported, ⟨_, monitor⟩, refreshed, order, before, after⟩ :
      ∃ plan, compile echo { blockSize := 4 } = .ok (.ok plan) ∧
      ∃ told, plan.monitor.latencies.report 1 1 = .ok told ∧
      ∃ refreshed, ({ plan.monitor with latencies := told.2 } : Monitor).refreshIfDirty = .ok refreshed ∧
        plan.monitor.order = [⟨0⟩, ⟨1⟩, ⟨2⟩] ∧ plan.monitor.routeCompensation? ⟨0⟩ ⟨2⟩ = some 2 ∧
        refreshed.2.routeCompensation? ⟨0⟩ ⟨2⟩ = some 1 := by decide +kernel
  have told : Plan.Step echo plan { plan with monitor := { plan.monitor with latencies } } := by
    refine .report reported fun id found => ?_
    rw [order] at found
    cases found
    decide
  exact ⟨plan, { plan with monitor }, compiled, Relation.ReflTransGen.tail (.single told) (.refreshIfDirty refreshed),
    before, after⟩

theorem echo_delays_fit : ∃ plan last : Plan Builtin, compile echo { blockSize := 4 } = .ok (.ok plan) ∧
    Relation.ReflTransGen (Plan.Step echo) plan last ∧
    last.monitor.routeCompensation? ⟨0⟩ ⟨2⟩ = some 1 ∧
    (∀ station ∈ last.layout.stations, ∀ line ∈ station.lines, ∀ rest,
      last.monitor.latencies.links[line.link]? = some rest → rest ≤ line.capacity) ∧
    last.monitor.clamps = 0 := by
  obtain ⟨plan, last, compiled, steps, _, after⟩ := echo_shortened
  obtain ⟨_, lines, _, clamps, _⟩ := delays_fit compiled steps
  exact ⟨plan, last, compiled, steps, after, lines, clamps⟩

end Patchbay
