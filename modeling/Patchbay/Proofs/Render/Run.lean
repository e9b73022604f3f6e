import Patchbay.Proofs.Plan.Acceptance
import Patchbay.Proofs.Plan.Routes
import Patchbay.Proofs.Render.Block

/-! Runs: block after block of one compiled plan.

Between two blocks something may change a plan; how much is a parameter of a run.
Whatever changes nodes, published delays and counters only, or silences the
lanes, leaves a plan that serves its patch as before.
-/

set_option autoImplicit false

namespace Patchbay

variable {ν : Type}

/-! ## Between two blocks -/

theorem Monitor.refresh_spec {monitor after : Monitor} {report : RefreshReport}
    (answer : monitor.refresh = .ok (report, after)) :
    ∃ alignment, monitor.graph.align monitor.latencies.intrinsic = .ok alignment ∧
      after = { monitor with
        latencies := { monitor.latencies with compensation := alignment.values, links := alignment.links }
        misaligned := countMisaligned alignment.links monitor.latencies.linkCapacity } := by
  simp only [refresh, Latencies.refresh, bind_eq_ok, pure_eq_ok, Prod.exists, Prod.mk.injEq] at answer
  obtain ⟨_, _, ⟨alignment, aligns, rfl, rfl⟩, rfl, rfl⟩ := answer
  exact ⟨alignment, aligns, rfl⟩

theorem Monitor.refreshIfDirty_cases {monitor after : Monitor} {report : Option RefreshReport}
    (answer : monitor.refreshIfDirty = .ok (report, after)) :
    (monitor.latencies.dirty = true ∧ ∃ alignment,
      monitor.graph.align monitor.latencies.intrinsic = .ok alignment ∧
      after = { monitor with
        latencies := { monitor.latencies with
          compensation := alignment.values, links := alignment.links, dirty := false }
        misaligned := countMisaligned alignment.links monitor.latencies.linkCapacity }) ∨
    monitor.latencies.dirty = false ∧ after = monitor := by
  unfold refreshIfDirty at answer
  split at answer
  · rename_i marked
    simp only [bind_eq_ok, pure_eq_ok, Prod.exists, Prod.mk.injEq] at answer
    obtain ⟨_, _, answer, _, rfl⟩ := answer
    obtain ⟨alignment, aligns, rfl⟩ := refresh_spec answer
    exact .inl ⟨marked, alignment, aligns, rfl⟩
  · rename_i clean
    cases answer
    exact .inr ⟨Bool.eq_false_iff.mpr clean, rfl⟩

/-- What may change between two blocks: nodes, published delays and counters. -/
structure Plan.Adjusted (before after : Plan ν) : Prop where
  layout : after.layout = before.layout
  lanes : after.lanes = before.lanes
  order : after.monitor.order = before.monitor.order
  failed : after.monitor.failed = before.monitor.failed
  graph : after.monitor.graph = before.monitor.graph
  bound : after.monitor.compensationBound = before.monitor.compensationBound

theorem Plan.Adjusted.refl (plan : Plan ν) : plan.Adjusted plan := ⟨rfl, rfl, rfl, rfl, rfl, rfl⟩

variable [Node ν]

structure Plan.Charts (patch : Patch ν) (placed : List (Placed ν)) (survey : Survey) (plan : Plan ν) : Prop where
  stations : Stations patch placed survey plan.layout.stations
  order : plan.monitor.order = placed.map (·.id)
  graph : plan.monitor.graph = survey.graph

/-- The plan renders the patch that it was compiled from. -/
structure Plan.Serves (patch : Patch ν) (options : CompileOptions) (placed : List (Placed ν))
    (survey : Survey) (plan : Plan ν) : Prop extends plan.Charts patch placed survey where
  ready : plan.Ready options.format
  bound : plan.monitor.compensationBound = survey.bound
  sink : ∃ position port channels place station, SinkAt patch placed position port channels place ∧
    plan.layout.stations[position]? = some station ∧ plan.layout.sinkLane = station.base + port

theorem Assembled.lane_eq {options : CompileOptions} {placed : List (Placed ν)} {survey : Survey}
    {sink : Nat × Nat × Nat} {plan : Plan ν} (assembled : Assembled options placed survey sink plan)
    {lane : Nat} {slot : PortType × Nat} {item : Lane} (typed : plan.layout.slots[lane]? = some slot)
    (found : plan.lanes[lane]? = some item) : item = options.format.emptyLane slot := by
  rw [← Array.getElem?_toList, assembled.lanes, List.getElem?_map, typed] at found
  exact (Option.some.inj found).symm

theorem Assembled.furnished {options : CompileOptions} {placed : List (Placed ν)} {survey : Survey}
    {sink : Nat × Nat × Nat} {plan : Plan ν} (assembled : Assembled options placed survey sink plan) :
    options.format.Furnished plan.layout.slots plan.lanes := by
  refine ⟨?_, ?_, ?_⟩
  · rw [← Array.length_toList, assembled.lanes, List.length_map]
  · intro index slot item typed found
    rw [assembled.lane_eq typed found]
    exact Format.shapes_silence slot.1
  · intro index slot item typed found
    rw [assembled.lane_eq typed found]
    exact Format.holds_emptyLine slot.2 slot.1

theorem CompiledFrom.serves {patch : Patch ν} {options : CompileOptions} {placed : List (Placed ν)}
    {survey : Survey} {plan : Plan ν} (compiled : CompiledFrom patch options placed survey plan) :
    plan.Serves patch options placed survey := by
  obtain ⟨position, port, channels, place, sinkAt, assembled⟩ := compiled.assembled
  have stations : Stations patch placed survey plan.layout.stations := by
    rw [assembled.stations]
    exact Layout.layStations_stations compiled.surveyed
  obtain ⟨station, found, stationed⟩ := stations.stationed sinkAt.item
  obtain ⟨spec, atPort, type⟩ := sinkAt.audio
  have lane : plan.layout.sinkLane = station.base + port := by
    rw [assembled.sinkLane, found]
    rfl
  have output : station.outputs[port]? = some (.audio channels) := by
    rw [stationed.outputs, List.getElem?_map, atPort, Option.map_some, type]
  have slotted : ∀ station ∈ plan.layout.stations, station.Slotted plan.layout.slots := fun station member =>
    stations.slotted member
  refine {
    stations
    ready := ⟨⟨assembled.blockSize, assembled.eventCapacity, stations.numbered, slotted, channels,
      station.delayCapacity, ?_, assembled.sinkChannels⟩, assembled.furnished, ?_⟩
    order := assembled.order
    bound := assembled.bound
    graph := assembled.graph
    sink := ⟨position, port, channels, place, station, sinkAt, found, lane⟩ }
  · rw [lane]
    exact (slotted station (List.mem_of_getElem? found)).outputs output
  · rw [assembled.failed, Array.size_replicate, stations.length]

theorem CompiledFrom.keeps {patch : Patch ν} {options : CompileOptions} {placed : List (Placed ν)}
    {survey : Survey} {plan : Plan ν} (compiled : CompiledFrom patch options placed survey plan)
    {keeps : ν → Prop} (all : ∀ id node, patch.node? id = some node → keeps node) : plan.Keeps keeps := by
  obtain ⟨_, _, _, _, _, assembled⟩ := compiled.assembled
  intro position node found
  rw [assembled.nodes, List.getElem?_toArray, List.getElem?_map, Option.map_eq_some_iff] at found
  obtain ⟨place, item, rfl⟩ := found
  exact all place.id place.node (compiled.surveyed.placement.present place (List.mem_of_getElem? item))

/-- Nothing may change between two blocks but by adjustments and resets. -/
inductive Plan.Touched (before : Plan ν) : Plan ν → Prop where
  | adjusted {after : Plan ν} : before.Adjusted after → Touched before after
  | reset : Touched before before.reset

namespace Plan.Serves

variable {patch : Patch ν} {options : CompileOptions} {placed : List (Placed ν)} {survey : Survey}
  {plan after : Plan ν}

theorem adjusted (serves : plan.Serves patch options placed survey) (changes : plan.Adjusted after) :
    after.Serves patch options placed survey where
  stations := changes.layout ▸ serves.stations
  ready := ⟨changes.layout ▸ serves.ready.sound, by
    rw [changes.layout, changes.lanes]
    exact serves.ready.furnished, by
    rw [changes.layout, changes.failed]
    exact serves.ready.marks⟩
  order := changes.order.trans serves.order
  bound := changes.bound.trans serves.bound
  graph := changes.graph.trans serves.graph
  sink := changes.layout ▸ serves.sink

theorem reset (serves : plan.Serves patch options placed survey) :
    plan.reset.Serves patch options placed survey := by
  have lane : ∀ {lane : Nat} {item}, plan.reset.lanes[lane]? = some item →
      ∃ old, plan.lanes[lane]? = some old ∧ item = old.clear := by
    intro lane item found
    simp only [Plan.reset, Array.getElem?_map, Option.map_eq_some_iff] at found
    obtain ⟨old, there, rfl⟩ := found
    exact ⟨old, there, rfl⟩
  have furnished := serves.ready.furnished
  refine ⟨⟨serves.stations, serves.order, serves.graph⟩, ⟨serves.ready.sound, ⟨?_, ?_, ?_⟩, serves.ready.marks⟩,
    serves.bound, serves.sink⟩
  · exact Array.size_map.trans furnished.size
  · intro index slot item typed found
    obtain ⟨old, there, rfl⟩ := lane found
    exact (furnished.shapes typed there).clear
  · intro index slot item typed found
    obtain ⟨old, there, rfl⟩ := lane found
    show options.format.Holds slot.2 slot.1 old.delay.clear
    rw [(furnished.holds typed there).clear_eq]
    exact Format.holds_emptyLine slot.2 slot.1

theorem touched (serves : plan.Serves patch options placed survey) (touched : plan.Touched after) :
    after.Serves patch options placed survey := by
  cases touched with
  | adjusted changes => exact serves.adjusted changes
  | reset => exact serves.reset

theorem rendered (serves : plan.Serves patch options placed survey) {clock : Nat} {context : Context}
    {calls : List (Call ν)} {losses : List Nat} {output : AudioBuffer}
    (rendered : Rendered options.format clock plan context calls losses output after) :
    after.Serves patch options placed survey where
  stations := rendered.layout ▸ serves.stations
  ready := rendered.ready serves.ready
  order := rendered.monitor.order.trans serves.order
  bound := rendered.monitor.bound.trans serves.bound
  graph := rendered.monitor.graph.trans serves.graph
  sink := rendered.layout ▸ serves.sink

end Plan.Serves

/-! ## Runs -/

/-- One rendered block with what went in and what came out. -/
structure Block (ν : Type) where
  engine : Engine
  before : Plan ν
  context : Context
  calls : List (Call ν)
  rendered : Engine
  after : Plan ν
  moved : Context

def Block.Renders (block : Block ν) : Prop :=
  block.engine.render block.before block.context =
    .ok (block.calls, block.rendered, block.after, block.moved)

/-- Blocks of one plan, from its first state to its last. -/
inductive Run (between : Plan ν → Plan ν → Prop) (first : Plan ν) : List (Block ν) → Plan ν → Prop where
  | start : Run between first [] first
  | render {blocks : List (Block ν)} {plan : Plan ν} {block : Block ν} : Run between first blocks plan →
      between plan block.before → block.Renders → Run between first (blocks ++ [block]) block.after

def Block.Made (format : Format) (block : Block ν) (clock : Nat) (losses : List Nat) : Prop :=
  block.context.clock = .ok clock ∧ Rendered format clock block.before block.context block.calls losses
    block.rendered.output block.after

section

variable {patch : Patch ν} {options : CompileOptions} {placed : List (Placed ν)} {survey : Survey}
  {first last : Plan ν} {blocks : List (Block ν)} {between : Plan ν → Plan ν → Prop}

theorem Run.mono {wider : Plan ν → Plan ν → Prop} (run : Run between first blocks last)
    (admits : ∀ plan after, between plan after → wider plan after) : Run wider first blocks last := by
  induction run with
  | start => exact .start
  | render _ changes renders ih => exact ih.render (admits _ _ changes) renders

theorem Run.upTo (run : Run between first blocks last) {index : Nat} {block : Block ν}
    (found : blocks[index]? = some block) :
    ∃ plan, Run between first (blocks.take index) plan ∧ between plan block.before ∧ block.Renders := by
  induction run with
  | start => simp at found
  | @render earlier plan newest before changes renders ih =>
    rcases Nat.lt_or_ge index earlier.length with inside | outside
    · rw [List.getElem?_append_left inside] at found
      rw [List.take_append_of_le_length (by omega)]
      exact ih found
    · have bound := (List.getElem?_eq_some_iff.mp found).1
      rw [List.length_append, List.length_singleton] at bound
      obtain rfl : index = earlier.length := by omega
      rw [List.getElem?_concat_length] at found
      cases found
      rw [List.take_left]
      exact ⟨plan, before, changes, renders⟩

theorem Run.renders_of_mem (run : Run between first blocks last) {block : Block ν} (member : block ∈ blocks) :
    block.Renders := by
  obtain ⟨index, found⟩ := List.mem_iff_getElem?.mp member
  obtain ⟨_, _, _, renders⟩ := run.upTo found
  exact renders

theorem Run.last_block (run : Run between first blocks last) {sofar : List (Block ν)} {block : Block ν}
    (ends : blocks = sofar ++ [block]) :
    ∃ plan, Run between first sofar plan ∧ between plan block.before ∧ block.Renders ∧ last = block.after := by
  cases run with
  | start => simp at ends
  | render run changes renders =>
    obtain ⟨rfl, same⟩ := List.append_inj' ends rfl
    cases same
    exact ⟨_, run, changes, renders, rfl⟩

theorem Run.split (run : Run between first blocks last) {sofar later : List (Block ν)}
    (parts : blocks = sofar ++ later) : ∃ middle, Run between first sofar middle ∧ Run between middle later last := by
  induction run generalizing later with
  | start =>
    obtain ⟨rfl, rfl⟩ := List.append_eq_nil_iff.mp parts.symm
    exact ⟨first, .start, .start⟩
  | @render earlier plan block before changes renders ih =>
    rcases List.eq_nil_or_concat later with rfl | ⟨rest, newest, rfl⟩
    · rw [List.append_nil] at parts
      exact ⟨block.after, parts ▸ before.render changes renders, .start⟩
    · rw [List.concat_eq_append, ← List.append_assoc] at parts
      obtain ⟨same, ends⟩ := List.append_inj' parts rfl
      cases ends
      obtain ⟨middle, sooner, rest⟩ := ih same
      rw [List.concat_eq_append]
      exact ⟨middle, sooner, rest.render changes renders⟩

theorem Plan.Touched.layout {plan after : Plan ν} (touched : plan.Touched after) :
    after.layout = plan.layout := by
  cases touched with
  | adjusted changes => exact changes.layout
  | reset => rfl

theorem Plan.Serves.touches {plan after : Plan ν} (serves : plan.Serves patch options placed survey)
    (touches : Relation.ReflTransGen Plan.Touched plan after) :
    after.Serves patch options placed survey ∧ after.layout = plan.layout := by
  induction touches with
  | refl => exact ⟨serves, rfl⟩
  | tail _ touched ih => exact ⟨ih.1.touched touched, touched.layout.trans ih.2⟩

theorem Run.serves_touches (run : Run (Relation.ReflTransGen Plan.Touched) first blocks last)
    (serves : first.Serves patch options placed survey)
    (orderly : ∀ block ∈ blocks, ∀ call ∈ block.calls, call.Orderly options.format) :
    (last.Serves patch options placed survey ∧ last.layout = first.layout) ∧ ∀ block ∈ blocks,
      block.before.Serves patch options placed survey ∧ block.before.layout = first.layout ∧
        ∃ clock losses, block.Made options.format clock losses := by
  induction run with
  | start => exact ⟨⟨serves, rfl⟩, by simp⟩
  | @render earlier plan block _ changes renders ih =>
    obtain ⟨sooner, here⟩ := forall_mem_concat.mp orderly
    obtain ⟨⟨now, layout⟩, all⟩ := ih sooner
    obtain ⟨before, kept⟩ := now.touches changes
    have layout := kept.trans layout
    obtain ⟨clock, losses, ticks, _, rendered⟩ := Engine.render_spec before.ready renders here
    exact ⟨⟨before.rendered rendered, rendered.layout.trans layout⟩,
      forall_mem_concat.mpr ⟨all, before, layout, clock, losses, ticks, rendered⟩⟩

/-- What holds at first, and is kept between blocks and by every block, holds throughout a run. -/
theorem Run.invariant {holds : Plan ν → Prop} (run : Run between first blocks last)
    (touches : ∀ {plan after}, between plan after → Relation.ReflTransGen Plan.Touched plan after)
    (serves : first.Serves patch options placed survey)
    (orderly : ∀ block ∈ blocks, ∀ call ∈ block.calls, call.Orderly options.format) (start : holds first)
    (kept : ∀ plan after, between plan after → after.layout = plan.layout → holds plan → holds after)
    (step : ∀ (block : Block ν) clock losses, block.before.Serves patch options placed survey →
      block.before.layout = first.layout → block.Made options.format clock losses → holds block.before →
      holds block.after) : holds last ∧ ∀ block ∈ blocks, holds block.before ∧ holds block.after := by
  have touched : ∀ {sofar : List (Block ν)} {plan}, Run between first sofar plan →
      Run (Relation.ReflTransGen Plan.Touched) first sofar plan :=
    fun run => run.mono fun _ _ changes => touches changes
  induction run with
  | start => exact ⟨start, by simp⟩
  | @render earlier plan block sooner changes renders ih =>
    obtain ⟨orderly', _⟩ := forall_mem_concat.mp orderly
    obtain ⟨now, past⟩ := ih orderly'
    have serving := ((touched sooner).serves_touches serves orderly').1.1
    obtain ⟨_, all⟩ := (touched (sooner.render changes renders)).serves_touches serves orderly
    obtain ⟨before, layout, clock, losses, made⟩ := (forall_mem_concat.mp all).2
    have here := kept plan block.before changes (serving.touches (touches changes)).2 now
    have after := step block clock losses before layout made here
    exact ⟨after, forall_mem_concat.mpr ⟨past, here, after⟩⟩

theorem Run.serves (run : Run Plan.Touched first blocks last)
    (serves : first.Serves patch options placed survey)
    (orderly : ∀ block ∈ blocks, ∀ call ∈ block.calls, call.Orderly options.format) :
    (last.Serves patch options placed survey ∧ last.layout = first.layout) ∧ ∀ block ∈ blocks,
      block.before.Serves patch options placed survey ∧ block.before.layout = first.layout ∧
        ∃ clock losses, block.Made options.format clock losses :=
  (run.mono fun _ _ touched => .single touched).serves_touches serves orderly

theorem Run.made (run : Run Plan.Adjusted first blocks last)
    (serves : first.Serves patch options placed survey)
    (orderly : ∀ block ∈ blocks, ∀ call ∈ block.calls, call.Orderly options.format) :
    ∀ block ∈ blocks, block.before.Serves patch options placed survey ∧
      block.before.layout = first.layout ∧ ∃ clock losses, block.Made options.format clock losses :=
  ((run.mono fun _ _ changes => Plan.Touched.adjusted changes).serves serves orderly).2

theorem Run.abidesBy {allowed : Ports → Ports → Prop} {keeps : ν → Prop} (abides : Node.AbidesBy allowed keeps)
    (orderly : ∀ call : Call ν, allowed call.ports call.reply → call.Orderly options.format)
    (run : Run between first blocks last)
    (touches : ∀ {plan after}, between plan after → Relation.ReflTransGen Plan.Touched plan after)
    (goesOn : ∀ {plan after}, between plan after → plan.Keeps keeps → after.Keeps keeps)
    (serves : first.Serves patch options placed survey) (kept : first.Keeps keeps) :
    last.Serves patch options placed survey ∧ last.Keeps keeps ∧
      ∀ block ∈ blocks, ∀ call ∈ block.calls, allowed call.ports call.reply := by
  induction run with
  | start => exact ⟨serves, kept, by simp⟩
  | @render earlier plan block _ changes renders ih =>
    obtain ⟨now, keeps, all⟩ := ih
    obtain ⟨before, _⟩ := now.touches (touches changes)
    obtain ⟨within, after⟩ := Engine.render_abidesBy abides orderly before.ready (goesOn changes keeps) renders
    obtain ⟨_, _, _, _, rendered⟩ :=
      Engine.render_spec before.ready renders fun call member => orderly call (within call member)
    exact ⟨before.rendered rendered, after, forall_mem_concat.mpr ⟨all, within⟩⟩

theorem Run.typed_touches {keeps : ν → Prop} (abides : Node.Abides keeps) (run : Run between first blocks last)
    (touches : ∀ {plan after}, between plan after → Relation.ReflTransGen Plan.Touched plan after)
    (goesOn : ∀ {plan after}, between plan after → plan.Keeps keeps → after.Keeps keeps)
    (serves : first.Serves patch options placed survey) (kept : first.Keeps keeps) :
    last.Serves patch options placed survey ∧ last.Keeps keeps ∧
      ∀ block ∈ blocks, ∀ call ∈ block.calls, call.Typed :=
  run.abidesBy abides.accesses (fun _ typed => Call.Typed.orderly typed options.format) touches goesOn serves kept

theorem Run.typed {keeps : ν → Prop} (abides : Node.Abides keeps) (run : Run between first blocks last)
    (touches : ∀ {plan after}, between plan after → plan.Touched after)
    (goesOn : ∀ {plan after}, between plan after → plan.Keeps keeps → after.Keeps keeps)
    (serves : first.Serves patch options placed survey) (kept : first.Keeps keeps) :
    last.Serves patch options placed survey ∧ last.Keeps keeps ∧
      ∀ block ∈ blocks, ∀ call ∈ block.calls, call.Typed :=
  run.typed_touches abides (fun changes => .single (touches changes)) goesOn serves kept

end

end Patchbay
