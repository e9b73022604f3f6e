import Patchbay.Proofs.Node.Builtin
import Patchbay.Proofs.Render.Answers
import Patchbay.Proofs.Render.Reads
import Patchbay.Proofs.Render.Scratch

/-! Rendering a compiled plan does not fail.

Whatever was rendered, reported, refreshed and changed before, a compiled plan has
all that its stations ask for. The one thing that a block may lack is space for a
renderer's merges, where a plan needs more of it than can be addressed.
-/

set_option autoImplicit false

namespace Patchbay

variable {ν : Type} [Node ν] {patch : Patch ν} {options : CompileOptions} {placed : List (Placed ν)}
  {survey : Survey} {plan after last : Plan ν} {keeps : ν → Prop}

/-! ## What stations ask for -/

theorem Layout.Numbered.stop_le {next : Nat} {stations : List Station} {station : Station}
    (numbered : Layout.Numbered next stations) (member : station ∈ stations) :
    station.stop ≤ next + (stations.flatMap (·.slots)).length := by
  induction stations generalizing next with
  | nil => cases member
  | cons first rest ih =>
    obtain ⟨numbers, numbered⟩ := numbered
    have stop := Station.stop_eq numbers
    rw [List.flatMap_cons, List.length_append]
    rcases List.mem_cons.mp member with rfl | among
    · omega
    · have := ih numbered among
      omega

theorem Stations.input_type {stations : List Station} (laid : Stations patch placed survey stations)
    {position producer : Nat} {station : Station} {id : EdgeId} {edge : Edge} {type : PortType} {feed : Feed}
    (found : patch.edge? id = some edge)
    (routed : edge.Routed placed survey stations station position producer type feed) :
    ∃ spec, patch.InputAt edge.dest edge.destPort spec ∧ spec.type = type := by
  obtain ⟨output, input, atSource, atInput, joined⟩ := Patch.fits_iff.mp (laid.surveyed.fits id edge found)
  obtain ⟨origin, source, sourceIs⟩ := routed.source
  obtain ⟨upstream, atProducer, typed, _⟩ := routed.output
  obtain ⟨spec, atOutput, rfl⟩ := (laid.output_iff source atProducer).mp typed
  rw [sourceIs] at atOutput
  obtain rfl := atSource.unique atOutput
  exact ⟨input, atInput, joined.symm⟩

theorem Stations.feed_slot {stations : List Station} (laid : Stations patch placed survey stations)
    {position port : Nat} {place : Placed ν} {station : Station} {row : List Feed} {feed : Feed}
    (item : placed[position]? = some place) (found : stations[position]? = some station)
    (atPort : station.inputs[port]? = some row) (inRow : feed ∈ row) :
    ∃ spec, patch.InputAt place.id port spec ∧
      ∃ room, (stations.flatMap (·.slots))[feed.lane]? = some (spec.type, room) := by
  obtain ⟨⟨id, edge⟩, inPort, producer, type, routed⟩ :=
    exists_of_mem_right ((laid.routes item found).2 port row atPort) inRow
  obtain ⟨atId, into, intoPort⟩ := Patch.mem_edgesInto.mp inPort
  obtain ⟨spec, declared, rfl⟩ := laid.input_type atId routed
  dsimp only at into intoPort declared
  rw [into, intoPort] at declared
  refine ⟨spec, declared, ?_⟩
  obtain ⟨upstream, atProducer, typed, lane⟩ := routed.output
  cases routed.reads with
  | shared same =>
    refine ⟨upstream.delayCapacity, ?_⟩
    rw [same, lane]
    exact laid.numbered.output_slot (List.mem_of_getElem? atProducer) typed
  | own _ _ inLines => exact ⟨_, laid.numbered.line_slot (List.mem_of_getElem? found) inLines⟩

theorem Block.Made.shapes_shown {block : Block ν} {clock : Nat} {losses : List Nat} {call : Call ν}
    {place : Placed ν} (before : block.before.Serves patch options placed survey)
    (made : block.Made options.format clock losses) (member : call ∈ block.calls)
    (item : placed[call.position]? = some place) (port : Nat) : ∀ source ∈ call.ports.inputs.sources port,
      ∃ spec, patch.InputAt place.id port spec ∧ options.format.Shapes spec.type source.buffer := by
  obtain ⟨station, found, _⟩ := before.stations.stationed item
  obtain ⟨_, visit⟩ := made.visit member found
  intro source among
  unfold Inputs.sources at among
  have length := visit.shown.length_eq
  cases atPort : call.ports.inputs.ports[port]? with
  | none => simp [atPort] at among
  | some sources =>
    obtain ⟨inside, rfl⟩ := List.getElem?_eq_some_iff.mp atPort
    rw [atPort, Option.getD_some] at among
    obtain ⟨feed, inRow, lane, atLane, rfl⟩ := exists_of_mem_right (visit.shown.get (length ▸ inside) inside) among
    obtain ⟨spec, declared, room, slot⟩ :=
      before.stations.feed_slot item found (List.getElem?_eq_getElem (length ▸ inside)) inRow
    exact ⟨spec, declared, made.2.furnished.shapes slot atLane⟩

theorem CompiledFrom.provided (compiled : CompiledFrom patch options placed survey plan) :
    ∀ station ∈ plan.layout.stations, station.Provided options.format plan.layout.slots survey.bound
      survey.graph.links.length plan.layout.maxInputSamples := by
  obtain ⟨_, _, _, _, _, assembled⟩ := compiled.assembled
  have laid := compiled.serves.stations
  have surveyed := laid.surveyed
  intro station member
  obtain ⟨position, found⟩ := List.mem_iff_getElem?.mp member
  obtain ⟨place, item, stationed⟩ := laid.place_of found
  refine ⟨laid.slotted member, ?_, ?_, ?_, ?_⟩
  · have below := laid.numbered.stop_le member
    rwa [Nat.zero_add] at below
  · rw [stationed.delayCapacity]
    exact surveyed.le_bound_of_delay (List.getElem?_eq_some_iff.mp item).1
  · intro line among
    have slot : (line.type, line.capacity) ∈ station.slots :=
      List.mem_append_left _ (List.mem_map.mpr ⟨line, among, rfl⟩)
    obtain ⟨_, _, _, _, _, _, _, _, _, _, _, _, _, _, linked, _⟩ := laid.line_edge found among
    exact ⟨(laid.slot_line item stationed slot).2,
      (List.getElem?_eq_some_iff.mp (surveyed.inOrder.getElem?_links linked)).1⟩
  · intro feed among
    obtain ⟨row, inInputs, inRow⟩ := List.mem_flatten.mp among
    obtain ⟨port, atPort⟩ := List.mem_iff_getElem?.mp inInputs
    obtain ⟨spec, ⟨node, present, atSpec⟩, room, slot⟩ := laid.feed_slot item found atPort inRow
    rw [surveyed.placement.present place (List.mem_of_getElem? item)] at present
    cases present
    refine ⟨_, slot, ?_⟩
    intro channels (audio : spec.type = .audio channels)
    -- The room for merges is that of the widest input of any node.
    have small := Layout.inputSamples_le_largestInput assembled.largest spec
      (List.mem_flatMap.mpr ⟨place, List.mem_of_getElem? item, List.mem_of_getElem? atSpec⟩)
    unfold Layout.inputSamples at small
    rw [audio] at small
    exact small

/-! ## Plans in use -/

/-- What may be done to a plan between two blocks: latencies are reported, delays are
published by a refresh, nodes are changed in what the property leaves open, and all
is reset. -/
inductive Plan.Managed (keeps : ν → Prop) (plan : Plan ν) : Plan ν → Prop where
  | report {position samples : Nat} {changed : Bool} {latencies : Latencies} :
      plan.monitor.latencies.report position samples = .ok (changed, latencies) →
      Managed keeps plan { plan with monitor := { plan.monitor with latencies } }
  | refresh {report : RefreshReport} {monitor : Monitor} : plan.monitor.refresh = .ok (report, monitor) →
      Managed keeps plan { plan with monitor }
  | refreshIfDirty {report : Option RefreshReport} {monitor : Monitor} :
      plan.monitor.refreshIfDirty = .ok (report, monitor) → Managed keeps plan { plan with monitor }
  | change {change : ν → ν} : (∀ node, keeps node → keeps (change node)) →
      Managed keeps plan (plan.mapNodes change)
  | reset : (∀ node, keeps node → keeps (Node.reset node)) → Managed keeps plan plan.reset

structure Plan.Complete (patch : Patch ν) (options : CompileOptions) (placed : List (Placed ν)) (survey : Survey)
    (keeps : ν → Prop) (plan : Plan ν) : Prop where
  serves : plan.Serves patch options placed survey
  covers : plan.monitor.Covers placed.length survey.graph.links.length
  nodes : ∀ position < placed.length, ∃ node, plan.nodes[position]? = some node
  kept : plan.Keeps keeps

theorem CompiledFrom.complete (compiled : CompiledFrom patch options placed survey plan)
    (all : ∀ id node, patch.node? id = some node → keeps node) :
    plan.Complete patch options placed survey keeps := by
  obtain ⟨_, _, _, _, _, assembled⟩ := compiled.assembled
  obtain ⟨alignment, aligns, compensation, links⟩ := assembled.published
  have surveyed := compiled.surveyed
  have aligned := LatencyGraph.align_aligned surveyed.inOrder aligns
  refine ⟨compiled.serves, ⟨?_, ?_, ?_, ?_⟩, ?_, compiled.keeps all⟩
  · rw [assembled.failed, Array.size_replicate]
  · rw [assembled.intrinsic, surveyed.intrinsic, List.size_toArray, List.length_map]
  · rw [compensation, aligned.values_size, surveyed.size]
  · rw [links, aligned.links_size]
  · intro position inside
    rw [assembled.nodes, List.getElem?_toArray, List.getElem?_map, List.getElem?_eq_getElem inside]
    exact ⟨_, rfl⟩

omit [Node ν] in
theorem mapped_nodes {nodes : Array ν} {count : Nat} (all : ∀ position < count, ∃ node, nodes[position]? = some node)
    (change : ν → ν) : ∀ position < count, ∃ node, (nodes.map change)[position]? = some node := by
  intro position inside
  obtain ⟨node, found⟩ := all position inside
  exact ⟨change node, by rw [Array.getElem?_map, found, Option.map_some]⟩

namespace Plan.Complete

variable (complete : plan.Complete patch options placed survey keeps)
include complete

theorem publish (dirty : Bool) {alignment : Alignment}
    (aligns : plan.monitor.graph.align plan.monitor.latencies.intrinsic = .ok alignment) :
    ({ plan with monitor := { plan.monitor with
      latencies := { plan.monitor.latencies with
        compensation := alignment.values, links := alignment.links, dirty }
      misaligned := countMisaligned alignment.links plan.monitor.latencies.linkCapacity } } : Plan ν).Complete
        patch options placed survey keeps := by
  have surveyed := complete.serves.stations.surveyed
  rw [complete.serves.graph] at aligns
  have aligned := LatencyGraph.align_aligned surveyed.inOrder aligns
  exact ⟨complete.serves.adjusted ⟨rfl, rfl, rfl, rfl, rfl, rfl⟩, ⟨complete.covers.failed, complete.covers.intrinsic,
    aligned.values_size.trans surveyed.size, aligned.links_size⟩, complete.nodes, complete.kept⟩

theorem managed (managed : plan.Managed keeps after) :
    after.Complete patch options placed survey keeps ∧ after.layout = plan.layout := by
  cases managed with
  | report answer =>
    obtain ⟨compensation, links, known, _⟩ := Latencies.report_spec answer
    exact ⟨⟨complete.serves.adjusted ⟨rfl, rfl, rfl, rfl, rfl, rfl⟩, ⟨complete.covers.failed,
      known.trans complete.covers.intrinsic, compensation ▸ complete.covers.compensation,
      links ▸ complete.covers.links⟩, complete.nodes, complete.kept⟩, rfl⟩
  | refresh answer =>
    obtain ⟨alignment, aligns, rfl⟩ := Monitor.refresh_spec answer
    exact ⟨complete.publish _ aligns, rfl⟩
  | refreshIfDirty answer =>
    rcases Monitor.refreshIfDirty_cases answer with ⟨_, alignment, aligns, rfl⟩ | ⟨_, rfl⟩
    · exact ⟨complete.publish false aligns, rfl⟩
    · exact ⟨complete, rfl⟩
  | @change change keepsOn =>
    refine ⟨⟨complete.serves.adjusted ⟨rfl, rfl, rfl, rfl, rfl, rfl⟩, complete.covers,
      mapped_nodes complete.nodes change, ?_⟩, rfl⟩
    intro position node found
    simp only [Plan.mapNodes, Array.getElem?_map, Option.map_eq_some_iff] at found
    obtain ⟨old, there, rfl⟩ := found
    exact keepsOn old (complete.kept position old there)
  | reset keepsOn =>
    refine ⟨⟨complete.serves.reset, complete.covers, mapped_nodes complete.nodes Node.reset, ?_⟩, rfl⟩
    intro position node found
    simp only [Plan.reset, Array.getElem?_map, Option.map_eq_some_iff] at found
    obtain ⟨old, there, rfl⟩ := found
    exact keepsOn old (complete.kept position old there)

theorem manages (manages : Relation.ReflTransGen (Plan.Managed keeps) plan after) :
    after.Complete patch options placed survey keeps ∧ after.layout = plan.layout := by
  induction manages with
  | refl => exact ⟨complete, rfl⟩
  | tail _ managed ih =>
    obtain ⟨complete, layout⟩ := ih.1.managed managed
    exact ⟨complete, layout.trans ih.2⟩

theorem rendered (acts : Node.Acts keeps) {engine rendered : Engine} {context moved : Context} {calls : List (Call ν)}
    (renders : engine.render plan context = .ok (calls, rendered, after, moved)) :
    after.Complete patch options placed survey keeps ∧ after.layout = plan.layout := by
  have ready := complete.serves.ready
  have orderly := fun (call : Call ν) (uses : call.ports.Uses call.reply) =>
    Call.Orderly.of_uses uses options.format
  obtain ⟨uses, kept⟩ := Engine.render_abidesBy acts.abidesBy orderly ready complete.kept renders
  obtain ⟨_, _, _, _, made⟩ := Engine.render_spec ready renders fun call member => orderly call (uses call member)
  refine ⟨⟨complete.serves.rendered made, made.monitor.covers complete.covers, ?_, kept⟩, made.layout⟩
  intro position inside
  by_cases called : ∃ call ∈ calls, call.position = position
  · obtain ⟨call, member, rfl⟩ := called
    exact ⟨_, made.stepped call member⟩
  · rw [made.others position fun call member same => called ⟨call, member, same⟩]
    exact complete.nodes position inside

end Plan.Complete

theorem Run.complete {first : Plan ν} {blocks : List (Block ν)} (acts : Node.Acts keeps)
    (run : Run (Relation.ReflTransGen (Plan.Managed keeps)) first blocks last)
    (complete : first.Complete patch options placed survey keeps) :
    last.Complete patch options placed survey keeps ∧ last.layout = first.layout := by
  induction run with
  | start => exact ⟨complete, rfl⟩
  | render _ manages renders ih =>
    obtain ⟨complete, layout⟩ := ih.1.manages manages
    obtain ⟨after, kept⟩ := complete.rendered acts renders
    exact ⟨after, kept.trans (layout.trans ih.2)⟩

/-! ## Blocks -/

theorem CompiledFrom.sink_storable (compiled : CompiledFrom patch options placed survey plan) :
    0 < plan.layout.sinkChannels ∧
      plan.layout.blockSize * max plan.layout.sinkChannels 1 * 4 < Count.storageLimit := by
  obtain ⟨_, _, _, _, _, assembled⟩ := compiled.assembled
  have sound := compiled.serves.ready.sound
  obtain ⟨channels, room, slot, same⟩ := sound.sink
  have storable := assembled.storable _ (List.mem_of_getElem? slot)
  have once : max (max channels 1) 1 = max channels 1 := by omega
  rw [same, once, assembled.blockSize]
  exact ⟨by omega, storable.1⟩

/-- A renderer prepares itself for a plan unless it would need more space than can
be addressed. -/
theorem Engine.prepare_ok (engine : Engine) {layout : Layout} {events : Nat}
    (merged : layout.mergedEvents = .ok events)
    (output : layout.blockSize * max layout.sinkChannels 1 * 4 < Count.storageLimit) :
    (∃ prepared, engine.prepare layout = .ok prepared) ∨ engine.scratch.fits layout = .ok false ∧
      (Count.storageLimit ≤ layout.maxInputSamples * 4 ∨ Count.storageLimit ≤ events * 8) := by
  obtain ⟨fits, decided⟩ := engine.scratch.fits_answers merged
  unfold prepare
  rw [decided, ok_bind]
  cases fits with
  | true => exact .inl ⟨engine, rfl⟩
  | false =>
    by_cases small : layout.maxInputSamples * 4 < Count.storageLimit ∧ events * 8 < Count.storageLimit
    · obtain ⟨scratch, made⟩ := Scratch.forLayout_ok merged small.1 small.2 output
      refine .inl ⟨⟨scratch⟩, ?_⟩
      simp only [Bool.false_eq_true, if_false, forLayout, made, ok_bind]
      rfl
    · exact .inr ⟨rfl, by omega⟩

/-- A complete plan is rendered by every renderer that is prepared for it. -/
theorem Plan.Complete.renders (acts : Node.Acts keeps) (complete : plan.Complete patch options placed survey keeps)
    (provided : ∀ station ∈ plan.layout.stations, station.Provided options.format plan.layout.slots survey.bound
      survey.graph.links.length plan.layout.maxInputSamples)
    {engine prepared : Engine} (whole : engine.Whole) (prepares : engine.prepare plan.layout = .ok prepared)
    {context moved : Context} {clock : Nat} (ticks : context.clock = .ok clock)
    (time : clock + 2 ^ 32 + survey.bound + plan.layout.blockSize < Count.limit)
    (advances : context.advance = .ok moved) :
    ∃ calls rendered after, engine.render plan context = .ok (calls, rendered, after, moved) ∧ rendered.Whole := by
  have ready := complete.serves.ready
  obtain ⟨wide, _, size⟩ := whole.of_prepare ready.sound.channels_pos prepares
  have count := complete.serves.stations.length
  obtain ⟨calls, state, passed, uses⟩ : ∃ calls state, Progress.runFrom context clock plan.layout.blockSize 0
      plan.layout.stations ⟨plan.nodes, plan.lanes, plan.monitor, prepared.scratch.space⟩ = .ok (calls, state) ∧
      ∀ call ∈ calls, call.ports.Uses call.reply := by
    refine Progress.runFrom_ok acts ready.sound.numbered provided ready.furnished complete.covers (by omega) ?_
      wide.audio time
    intro index _ inside
    obtain ⟨node, found⟩ := complete.nodes index inside
    exact ⟨node, found, complete.kept index node found⟩
  have orderly := fun call member => Call.Orderly.of_uses (uses call member) options.format
  obtain ⟨rendered, renders⟩ := Engine.render_ok ready prepares size ticks passed orderly advances
  exact ⟨calls, rendered, _, renders, (Engine.render_fits ready orderly renders).2⟩

/-- Nodes that do nothing but use their ports are rendered block after block, whatever
is done in between and whatever renderer is used. What a node reads and what its
lines read lies below what is written. Only a renderer that has to make itself
more space than can be addressed does not render. -/
theorem renders_unless_unaddressable (acts : Node.Acts keeps)
    (all : ∀ id node, patch.node? id = some node → keeps node) (compiled : compile patch options = .ok (.ok plan))
    {blocks : List (Block ν)} (run : Run (Relation.ReflTransGen (Plan.Managed keeps)) plan blocks last)
    {now : Plan ν} (manages : Relation.ReflTransGen (Plan.Managed keeps) last now) :
    (∀ station ∈ now.layout.stations, (∀ feed ∈ station.feeds, feed.lane < station.base) ∧
      ∀ line ∈ station.lines, line.source < line.lane ∧ line.lane < station.base) ∧
    ∀ (engine : Engine) (context moved : Context) (clock events : Nat), engine.Whole → context.clock = .ok clock →
      context.advance = .ok moved →
      clock + 2 ^ 32 + plan.monitor.compensationBound + options.blockSize < Count.limit →
      plan.layout.mergedEvents = .ok events →
      (∃ calls rendered after, engine.render now context = .ok (calls, rendered, after, moved) ∧ rendered.Whole) ∨
      engine.scratch.fits plan.layout = .ok false ∧
        (Count.storageLimit ≤ plan.layout.maxInputSamples * 4 ∨ Count.storageLimit ≤ events * 8) := by
  obtain ⟨placed, survey, origin⟩ := compile_plan compiled
  obtain ⟨complete, layout⟩ := run.complete acts (origin.complete all)
  obtain ⟨complete, kept⟩ := complete.manages manages
  have same : now.layout = plan.layout := kept.trans layout
  have sound := complete.serves.ready.sound
  refine ⟨?_, ?_⟩
  · intro station member
    obtain ⟨start, _, numbers, _⟩ := sound.numbered.exists_start List.drop_zero member
    refine ⟨numbers.feeds, fun line among => ?_⟩
    obtain ⟨before, above, below⟩ := numbers.line_lt line among
    exact ⟨by omega, below⟩
  · intro engine context moved clock events whole ticks advances time merged
    have provided := origin.provided
    rw [origin.serves.bound] at time
    rw [← same] at provided merged ⊢
    have output := origin.sink_storable.2
    rw [← same] at output
    rcases engine.prepare_ok merged output with ⟨prepared, prepares⟩ | unaddressable
    · exact .inl (complete.renders acts provided whole prepares ticks (sound.blockSize ▸ time) advances)
    · exact .inr unaddressable

theorem constantIntoGain_renders_again : ∃ (plan : Plan Builtin) (block : Block Builtin) (moved : Context),
    compile constantIntoGain { blockSize := 4 } = .ok (.ok plan) ∧
      Run (Relation.ReflTransGen (Plan.Managed Builtin.Fits)) plan [block] block.after ∧
      ∃ calls rendered after, Engine.new.render block.after (.start 48000 4) = .ok (calls, rendered, after, moved) := by
  obtain ⟨plan, compiled, ⟨calls, rendered, after, moved⟩, renders, merged, samples, bound⟩ :
      ∃ plan, compile constantIntoGain { blockSize := 4 } = .ok (.ok plan) ∧
      ∃ block, Engine.new.render plan (.start 48000 4) = .ok block ∧ plan.layout.mergedEvents = .ok 256 ∧
        plan.layout.maxInputSamples = 4 ∧ plan.monitor.compensationBound = 0 := by decide +kernel
  have run : Run (Relation.ReflTransGen (Plan.Managed Builtin.Fits)) plan
      [⟨.new, plan, .start 48000 4, calls, rendered, after, moved⟩] after := .render .start .refl renders
  have fits : ∀ id node, constantIntoGain.node? id = some node → node.Fits := by
    rintro ⟨_ | _ | _⟩ node found <;> cases found <;> trivial
  obtain ⟨_, answers⟩ := renders_unless_unaddressable Builtin.acts fits compiled run .refl
  rcases answers .new (.start 48000 4) _ 0 256 Engine.whole_new rfl rfl (by rw [bound]; decide) merged with
    ⟨calls', rendered', after', again, _⟩ | ⟨_, unaddressable⟩
  · exact ⟨plan, _, _, compiled, run, calls', rendered', after', again⟩
  · rw [samples] at unaddressable
    exact absurd unaddressable (by decide)

/-- With places for too many events nothing is rendered, though no index, delay or
time is out of bounds: space for merges is made also where there is no event input. -/
theorem constantIntoGain_unaddressable : ∃ (plan : Plan Builtin) (moved : Context),
    compile constantIntoGain { blockSize := 4, eventCapacity := 2 ^ 60 } = .ok (.ok plan) ∧
      (Context.start 48000 4).clock = .ok 0 ∧ (Context.start 48000 4).advance = .ok moved ∧
      0 + 2 ^ 32 + plan.monitor.compensationBound + 4 < Count.limit ∧ plan.layout.mergedEvents = .ok (2 ^ 60) ∧
      Engine.new.Whole ∧ Engine.new.render plan (.start 48000 4) = .error .storage := by
  obtain ⟨plan, compiled, faulted, merged, bound⟩ :
      ∃ plan, compile constantIntoGain { blockSize := 4, eventCapacity := 2 ^ 60 } = .ok (.ok plan) ∧
        Engine.new.render plan (.start 48000 4) = .error .storage ∧ plan.layout.mergedEvents = .ok (2 ^ 60) ∧ plan.monitor.compensationBound = 0 := by decide +kernel
  exact ⟨plan, _, compiled, rfl, rfl, by rw [bound]; decide, merged, Engine.whole_new, faulted⟩

end Patchbay
