import Patchbay.Proofs.Node.Sight
import Patchbay.Proofs.Render.Losses

/-! Two plans side by side.

The plans were compiled from one patch and differ in one node, wherever its signals
can reach. A node that they cannot reach reads from such nodes only, so in every
block it is shown the same in both plans, does the same and leaves the same behind.
-/

set_option autoImplicit false

namespace Patchbay

variable {ν : Type}

inductive Plan.Command (ν : Type) where
  | refresh
  | refreshIfDirty
  | change (edit : ν → ν)
  | reset

variable [Node ν]

def Plan.Command.run (plan : Plan ν) : Command ν → Checked (Plan ν)
  | .refresh => do
      let (_, monitor) ← plan.monitor.refresh
      return { plan with monitor }
  | .refreshIfDirty => do
      let (_, monitor) ← plan.monitor.refreshIfDirty
      return { plan with monitor }
  | .change edit => .ok (plan.mapNodes edit)
  | .reset => .ok plan.reset

/-- Two plans are rendered over the same contexts, and between two blocks the same is
done to both. -/
inductive Plan.Twins (first second : Plan ν) : List (Block ν × Block ν) → Plan ν → Plan ν → Prop where
  | start : Twins first second [] first second
  | command {blocks : List (Block ν × Block ν)} {plan twin after after' : Plan ν} (command : Command ν) :
      Twins first second blocks plan twin → command.run plan = .ok after → command.run twin = .ok after' →
      Twins first second blocks after after'
  | render {blocks : List (Block ν × Block ν)} {block twin : Block ν} :
      Twins first second blocks block.before twin.before → twin.context = block.context → block.Renders →
      twin.Renders → Twins first second (blocks ++ [(block, twin)]) block.after twin.after

/-! ## What is the same in both -/

/-- The node was in the same state, could not tell the calls apart, and did the same in
both. -/
structure Call.Matches (call other : Call ν) : Prop where
  node : other.node = call.node
  sources : other.ports.inputs.ports = call.ports.inputs.ports
  alike : call.ports.Alike ν other.ports
  outcome : other.outcome = call.outcome
  next : other.next = call.next
  written : other.written = call.written

structure Plan.AgreeAt (plan twin : Plan ν) (position : Nat) (station : Station) : Prop where
  failed : twin.monitor.isFailedAt position = plan.monitor.isFailedAt position
  node : twin.nodes[position]? = plan.nodes[position]?
  lanes : ∀ lane, station.base ≤ lane + station.lines.length → lane < station.stop →
    twin.lanes[lane]? = plan.lanes[lane]?

/-- The plans differ in one node and in what it can reach, and nowhere else. -/
structure Plan.Agree (patch : Patch ν) (id : NodeId) (plan twin : Plan ν) : Prop where
  layout : twin.layout = plan.layout
  order : twin.monitor.order = plan.monitor.order
  latencies : twin.monitor.latencies = plan.monitor.latencies
  clear : ∀ {position : Nat} {station dest}, plan.layout.stations[position]? = some station →
    plan.monitor.order[position]? = some dest → ¬ Relation.ReflTransGen patch.Feeds id dest →
    plan.AgreeAt twin position station

/-- Every report of the block repeats what the plan knows. -/
def Plan.Knows (plan : Plan ν) (block : Block ν) : Prop :=
  ∀ call ∈ block.calls, call.fails = false →
    plan.monitor.latencies.intrinsic[call.position]? = some (Node.latency call.next)

/-! ## One visit -/

omit [Node ν] in
theorem Feed.Shows.unique {lanes lanes' : Array Lane} {feed : Feed} {source source' : Source}
    (shows_ : feed.Shows lanes source) (also : feed.Shows lanes' source')
    (same : lanes'[feed.lane]? = lanes[feed.lane]?) : source' = source := by
  obtain ⟨lane, found, rfl⟩ := shows_
  obtain ⟨lane', found', rfl⟩ := also
  rw [found', found] at same
  cases same
  rfl

section Visits

variable {format : Format} {compensation links : Array Nat} {context : Context} {clock blockSize first : Nat}
  {nodes nodes' : Array ν} {before after before' after' : Array Lane} {station : Station} {call call' : Call ν}
  {lost lost' : Nat}
  (visit : Visit format compensation links context clock blockSize nodes before after station call lost)
  (visit' : Visit format compensation links context clock blockSize nodes' before' after' station call' lost')
include visit visit'

theorem Visit.line_agree {line : RouteLine} (among : line ∈ station.lines)
    (same : before'[line.lane]? = before[line.lane]?) (source : after'[line.source]? = after[line.source]?) :
    after'[line.lane]? = after[line.lane]? := by
  obtain ⟨_, _, fills, _⟩ := visit.traffic
  obtain ⟨_, _, fills', _⟩ := visit'.traffic
  obtain ⟨_, _, filled⟩ := exists_of_mem_left fills among
  obtain ⟨_, _, filled'⟩ := exists_of_mem_left fills' among
  exact filled.unique filled' same source

theorem Visit.sources_agree (feeds : ∀ feed ∈ station.feeds, after'[feed.lane]? = after[feed.lane]?) :
    call'.ports.inputs.ports = call.ports.inputs.ports :=
  forall₂_unique visit.shown visit'.shown fun row inRow _ _ shown shown' =>
    forall₂_unique shown shown' fun feed cell _ _ here there =>
      here.unique there (feeds feed (List.mem_flatten.mpr ⟨row, inRow, cell⟩))

theorem Visit.matches (asks : Node.Asks ν) (node : call'.node = call.node) {most : Nat}
    (sources : call'.ports.inputs.ports = call.ports.inputs.ports) (roomy : call.ports.inputs.Roomy most)
    (roomy' : call'.ports.inputs.Roomy most) : call.Matches call' := by
  have blank : call'.ports.outputs = call.ports.outputs := visit'.blank.trans visit.blank.symm
  have shows_ : call.ports.ShowsSame most call'.ports :=
    ⟨sources, blank, visit'.fresh.trans visit.fresh.symm, roomy, roomy'⟩
  have answer := visit'.answer
  rw [node] at answer
  obtain ⟨outcome, next, outputs⟩ := shows_.alike _ (asks context call.node) visit.answer answer
  refine ⟨node, sources, shows_.alike, outcome, next, ?_⟩
  rw [Call.written, Call.written, outcome, outputs]

theorem Visit.output_agree (position : call'.position = call.position) (same : call.Matches call') {port : Nat}
    (inside : port < station.outputs.length)
    (held : before'[station.base + port]? = before[station.base + port]?) :
    after'[station.base + port]? = after[station.base + port]? := by
  obtain ⟨_, _, _, emits, _⟩ := visit.traffic
  obtain ⟨_, _, _, emits', _⟩ := visit'.traffic
  refine emits.unique emits' position ?_ same.written (visit.written.size ▸ inside) held
  rw [Call.fails, Call.fails, same.outcome]

end Visits

/-! ## One block -/

variable {patch : Patch ν} {options : CompileOptions} {placed : List (Placed ν)} {survey : Survey} {id : NodeId}

variable {block twin : Block ν} {clock : Nat} {losses losses' : List Nat}

theorem Block.Made.callAt?_eq_none {format : Format} (made : block.Made format clock losses) {position : Nat}
    (failed : block.before.monitor.isFailedAt position = true) : block.callAt? position = none :=
  List.find?_eq_none.mpr fun call member => by simpa using made.not_called failed call member

structure Block.AgreeAt (block twin : Block ν) (position : Nat) (station : Station) : Prop where
  calls : Option.Rel Call.Matches (block.callAt? position) (twin.callAt? position)
  after : block.after.AgreeAt twin.after position station

theorem Block.agreeAt_of_matches {format : Format} (made : block.Made format clock losses)
    (made' : twin.Made format clock losses') {call call' : Call ν} {station : Station} (member : call ∈ block.calls)
    (member' : call' ∈ twin.calls) (position : call'.position = call.position) (same : call.Matches call')
    (lanes : ∀ lane, station.base ≤ lane + station.lines.length → lane < station.stop →
      twin.after.lanes[lane]? = block.after.lanes[lane]?) : block.AgreeAt twin call.position station := by
  refine ⟨?_, ?_, ?_, lanes⟩
  · rw [made.callAt?_eq member, ← position, made'.callAt?_eq member']
    exact .some same
  · rw [made.failedAt_eq member, ← position, made'.failedAt_eq member', Call.fails, Call.fails, same.outcome]
  · rw [made.2.stepped call member, ← position, made'.2.stepped call' member', same.next]

section

variable (before : block.before.Serves patch options placed survey)
  (before' : twin.before.Serves patch options placed survey) (made : block.Made options.format clock losses)
  (made' : twin.Made options.format clock losses') {position : Nat} {station : Station}

include before before' made made'

/-- A node that failed earlier is left alone in both plans. -/
theorem Block.agreeAt_failed (layout : twin.before.layout = block.before.layout)
    (found : block.before.layout.stations[position]? = some station)
    (here : block.before.AgreeAt twin.before position station)
    (failed : block.before.monitor.isFailedAt position = true) : block.AgreeAt twin position station := by
  have failed' := here.failed.trans failed
  have found' := layout ▸ found
  refine ⟨?_, ?_, ?_, ?_⟩
  · rw [made.callAt?_eq_none failed, made'.callAt?_eq_none failed']
    exact .none
  · rw [made.2.monitor.failed, made'.2.monitor.failed, failed, failed', Bool.true_or, Bool.true_or]
  · rw [made.2.others position (made.not_called failed), made'.2.others position (made'.not_called failed'),
      here.node]
  · intro lane low high
    rw [made.untouched before found failed low high, made'.untouched before' found' failed' low high]
    exact here.lanes lane low high

theorem Block.agreeAt_running (asks : Node.Asks ν) (context : twin.context = block.context)
    (agree : block.before.Agree patch id twin.before)
    (found : block.before.layout.stations[position]? = some station)
    (here : block.before.AgreeAt twin.before position station)
    (runs : block.before.monitor.isFailedAt position = false) {place : Placed ν}
    (item : placed[position]? = some place)
    (feeders : ∀ {producer port : Nat} {origin upstream}, producer < position →
      placed[producer]? = some origin → patch.Feeds origin.id place.id →
      block.before.layout.stations[producer]? = some upstream → port < upstream.outputs.length →
      twin.after.lanes[upstream.base + port]? = block.after.lanes[upstream.base + port]?) :
    block.AgreeAt twin position station := by
  have laid := before.stations
  obtain ⟨call, member, rfl⟩ := made.exists_call found runs
  obtain ⟨call', member', position⟩ := made'.exists_call (agree.layout ▸ found) (here.failed.trans runs)
  obtain ⟨_, visit⟩ := made.visit member found
  obtain ⟨_, visit'⟩ := made'.visit member' (position ▸ agree.layout ▸ found)
  rw [context, agree.layout, agree.latencies] at visit'
  -- The lines in front of the node agree first, then what it reads, then what it does.
  have lines : ∀ line ∈ station.lines, twin.after.lanes[line.lane]? = block.after.lanes[line.lane]? := by
    intro line among
    obtain ⟨low, high⟩ := (laid.lined_iff found).mpr ⟨line, among, rfl⟩
    obtain ⟨producer, port, origin, upstream, earlier, source, feeds, atProducer, inside, same⟩ :=
      laid.line_feeder item found among
    refine visit.line_agree visit' among (here.lanes _ low (high.trans_le (Nat.le_add_right _ _))) ?_
    rw [same]
    exact feeders earlier source feeds atProducer inside
  have sources := visit.sources_agree visit' fun feed among => by
    rcases laid.feed_cases item found among with ⟨line, among, same⟩ | ⟨producer, port, origin, upstream, earlier,
      source, feeds, atProducer, inside, same⟩
    · rw [← same]
      exact lines line among
    · rw [same]
      exact feeders earlier source feeds atProducer inside
  have node : call'.node = call.node := by
    have held := here.node
    rw [visit.node, ← position, visit'.node] at held
    exact Option.some.inj held
  have same := visit.matches visit' asks node sources (made.roomy before.ready member)
    (made'.roomy before'.ready member')
  refine Block.agreeAt_of_matches made made' member member' position same fun lane low high => ?_
  by_cases below : lane < station.base
  · obtain ⟨line, among, rfl⟩ := (laid.lined_iff found).mp ⟨low, below⟩
    exact lines line among
  · obtain ⟨port, rfl⟩ : ∃ port, lane = station.base + port := ⟨lane - station.base, by omega⟩
    have inside : port < station.outputs.length := Nat.lt_of_add_lt_add_left high
    exact visit.output_agree visit' position same inside (here.lanes _ low high)

/-- In every block, a node that the difference cannot reach does the same in both
plans. -/
theorem Block.agreeAt (asks : Node.Asks ν) (context : twin.context = block.context)
    (agree : block.before.Agree patch id twin.before)
    (found : block.before.layout.stations[position]? = some station) {dest : NodeId}
    (placedAt : block.before.monitor.order[position]? = some dest)
    (clear : ¬ Relation.ReflTransGen patch.Feeds id dest) : block.AgreeAt twin position station := by
  induction position using Nat.strong_induction_on generalizing station dest with
  | _ position ih =>
    obtain ⟨place, item, rfl⟩ := before.place_at placedAt
    have here := agree.clear found placedAt clear
    cases runs : block.before.monitor.isFailedAt position with
    | true => exact agreeAt_failed before before' made made' agree.layout found here runs
    | false =>
      refine agreeAt_running before before' made made' asks context agree found here runs item ?_
      intro producer port origin upstream earlier source feeds atProducer inside
      have atOrigin : block.before.monitor.order[producer]? = some origin.id := by
        rw [before.order, List.getElem?_map, source, Option.map_some]
      have sooner := ih producer earlier atProducer atOrigin fun reached => clear (reached.tail feeds)
      exact sooner.after.lanes _ (by omega) (Nat.add_lt_add_left inside _)

end

/-! ## A run -/

theorem Plan.Command.touched {plan after : Plan ν} {command : Command ν} (answer : command.run plan = .ok after) :
    plan.Touched after ∧ after.monitor.latencies.intrinsic = plan.monitor.latencies.intrinsic := by
  cases command with
  | refresh =>
    simp only [run, bind_eq_ok, pure_eq_ok, Prod.exists] at answer
    obtain ⟨_, _, refreshed, rfl⟩ := answer
    obtain ⟨_, _, rfl⟩ := Monitor.refresh_spec refreshed
    exact ⟨.adjusted ⟨rfl, rfl, rfl, rfl, rfl, rfl⟩, rfl⟩
  | refreshIfDirty =>
    simp only [run, bind_eq_ok, pure_eq_ok, Prod.exists] at answer
    obtain ⟨_, _, refreshed, rfl⟩ := answer
    rcases Monitor.refreshIfDirty_cases refreshed with ⟨_, _, _, rfl⟩ | ⟨_, rfl⟩
    · exact ⟨.adjusted ⟨rfl, rfl, rfl, rfl, rfl, rfl⟩, rfl⟩
    · exact ⟨.adjusted (.refl plan), rfl⟩
  | change edit =>
    cases answer
    exact ⟨.adjusted ⟨rfl, rfl, rfl, rfl, rfl, rfl⟩, rfl⟩
  | reset =>
    cases answer
    exact ⟨.reset, rfl⟩

omit [Node ν] in
theorem Plan.Agree.publish {plan twin : Plan ν} (agree : plan.Agree patch id twin) (latencies : Latencies)
    (misaligned misaligned' : Nat) :
    ({ plan with monitor := { plan.monitor with latencies, misaligned } } : Plan ν).Agree patch id
      { twin with monitor := { twin.monitor with latencies, misaligned := misaligned' } } := by
  refine ⟨agree.layout, agree.order, rfl, fun found placedAt clear => ?_⟩
  obtain ⟨failed, node, lanes⟩ := agree.clear found placedAt clear
  exact ⟨failed, node, lanes⟩

theorem Plan.Agree.command {plan twin after after' : Plan ν} (agree : plan.Agree patch id twin)
    (graph : twin.monitor.graph = plan.monitor.graph) {command : Command ν}
    (answer : command.run plan = .ok after) (answer' : command.run twin = .ok after') :
    after.Agree patch id after' := by
  have same := agree.latencies
  cases command with
  | refresh =>
    simp only [Command.run, bind_eq_ok, pure_eq_ok, Prod.exists] at answer answer'
    obtain ⟨_, _, refreshed, rfl⟩ := answer
    obtain ⟨_, _, refreshed', rfl⟩ := answer'
    obtain ⟨_, aligns, rfl⟩ := Monitor.refresh_spec refreshed
    obtain ⟨_, aligns', rfl⟩ := Monitor.refresh_spec refreshed'
    rw [graph, same, aligns] at aligns'
    cases aligns'
    rw [same]
    exact agree.publish _ _ _
  | refreshIfDirty =>
    simp only [Command.run, bind_eq_ok, pure_eq_ok, Prod.exists] at answer answer'
    obtain ⟨_, _, refreshed, rfl⟩ := answer
    obtain ⟨_, _, refreshed', rfl⟩ := answer'
    rcases Monitor.refreshIfDirty_cases refreshed with ⟨dirty, _, aligns, rfl⟩ | ⟨clean, rfl⟩
    -- Both flags are the same, so either both plans refresh or none does.
    · rcases Monitor.refreshIfDirty_cases refreshed' with ⟨_, _, aligns', rfl⟩ | ⟨clean, _⟩
      · rw [graph, same, aligns] at aligns'
        cases aligns'
        rw [same]
        exact agree.publish _ _ _
      · simp [same, dirty] at clean
    · rcases Monitor.refreshIfDirty_cases refreshed' with ⟨dirty, _⟩ | ⟨_, rfl⟩
      · simp [same, clean] at dirty
      · exact agree
  | change edit =>
    cases answer
    cases answer'
    refine ⟨agree.layout, agree.order, same, fun found placedAt clear => ?_⟩
    obtain ⟨failed, node, lanes⟩ := agree.clear found placedAt clear
    exact ⟨failed, by simp [mapNodes, node], lanes⟩
  | reset =>
    cases answer
    cases answer'
    refine ⟨agree.layout, agree.order, same, fun found placedAt clear => ?_⟩
    obtain ⟨failed, node, lanes⟩ := agree.clear found placedAt clear
    exact ⟨failed, by simp [reset, node], fun lane low high => by simp [reset, lanes lane low high]⟩

/-- The plans serve the patch, have been told of no other latencies than at first, and
agree wherever the difference does not reach. -/
structure Plan.Abreast (patch : Patch ν) (options : CompileOptions) (placed : List (Placed ν)) (survey : Survey)
    (id : NodeId) (plan first twin : Plan ν) : Prop where
  serves : plan.Serves patch options placed survey
  serves' : twin.Serves patch options placed survey
  layout : plan.layout = first.layout
  intrinsic : plan.monitor.latencies.intrinsic = first.monitor.latencies.intrinsic
  agree : plan.Agree patch id twin

/-- The nodes of both blocks use the accessors of their ports and keep the latencies
that a plan knows. -/
structure Plan.Expects (plan : Plan ν) (block twin : Block ν) : Prop where
  typed : ∀ call ∈ block.calls, call.Typed
  typed' : ∀ call ∈ twin.calls, call.Typed
  knows : plan.Knows block
  knows' : plan.Knows twin

namespace Plan.Abreast

variable {first second plan other after after' : Plan ν} {blocks : List (Block ν × Block ν)}

theorem command (abreast : plan.Abreast patch options placed survey id first other) {command : Command ν}
    (answer : command.run plan = .ok after) (answer' : command.run other = .ok after') :
    after.Abreast patch options placed survey id first after' := by
  obtain ⟨touched, intrinsic⟩ := Command.touched answer
  have graph := abreast.serves'.graph.trans abreast.serves.graph.symm
  exact ⟨abreast.serves.touched touched, abreast.serves'.touched (Command.touched answer').1,
    touched.layout.trans abreast.layout, intrinsic.trans abreast.intrinsic, abreast.agree.command graph answer answer'⟩

theorem render (abreast : block.before.Abreast patch options placed survey id first twin.before)
    (asks : Node.Asks ν) (context : twin.context = block.context) (renders : block.Renders)
    (renders' : twin.Renders) (expects : first.Expects block twin) :
    block.after.Abreast patch options placed survey id first twin.after ∧
      ∀ {position : Nat} {station dest}, block.before.layout.stations[position]? = some station →
        block.before.monitor.order[position]? = some dest → ¬ Relation.ReflTransGen patch.Feeds id dest →
        block.AgreeAt twin position station := by
  obtain ⟨before, before', layout, intrinsic, agree⟩ := abreast
  obtain ⟨clock, losses, ticks, _, rendered⟩ := Engine.render_spec before.ready renders
    fun call member => (expects.typed call member).orderly options.format
  obtain ⟨clock', losses', ticks', _, rendered'⟩ := Engine.render_spec before'.ready renders'
    fun call member => (expects.typed' call member).orderly options.format
  have same := ticks'
  rw [context, ticks] at same
  cases same
  have alike : ∀ {position : Nat} {station dest}, block.before.layout.stations[position]? = some station →
      block.before.monitor.order[position]? = some dest → ¬ Relation.ReflTransGen patch.Feeds id dest →
      block.AgreeAt twin position station := fun found placedAt clear =>
    Block.agreeAt before before' ⟨ticks, rendered⟩ ⟨ticks', rendered'⟩ asks context agree found placedAt clear
  -- Reports that repeat what is known leave the latencies alone.
  have kept := rendered.monitor.steady (intrinsic ▸ expects.knows)
  have kept' := rendered'.monitor.steady (agree.latencies ▸ intrinsic ▸ expects.knows')
  refine ⟨⟨before.rendered rendered, before'.rendered rendered', rendered.layout.trans layout,
    (congrArg Latencies.intrinsic kept).trans intrinsic, ?_⟩, alike⟩
  refine ⟨?_, ?_, kept'.trans (agree.latencies.trans kept.symm), ?_⟩
  · rw [rendered.layout, rendered'.layout, agree.layout]
  · rw [rendered.monitor.order, rendered'.monitor.order, agree.order]
  · rw [rendered.layout, rendered.monitor.order]
    exact fun found placedAt clear => (alike found placedAt clear).after

theorem twins (abreast : first.Abreast patch options placed survey id first second) (asks : Node.Asks ν)
    (twins : Plan.Twins first second blocks plan other) (expects : ∀ pair ∈ blocks, first.Expects pair.1 pair.2) :
    plan.Abreast patch options placed survey id first other ∧ ∀ pair ∈ blocks,
      pair.1.after.Abreast patch options placed survey id first pair.2.after ∧
      ∀ {position : Nat} {station dest}, first.layout.stations[position]? = some station →
        first.monitor.order[position]? = some dest → ¬ Relation.ReflTransGen patch.Feeds id dest →
        pair.1.AgreeAt pair.2 position station := by
  induction twins with
  | start => exact ⟨abreast, by simp⟩
  | command _ _ answer answer' ih =>
    obtain ⟨now, all⟩ := ih expects
    exact ⟨now.command answer answer', all⟩
  | @render earlier block twin _ context renders renders' ih =>
    obtain ⟨sooner, here⟩ := forall_mem_concat.mp expects
    obtain ⟨before, all⟩ := ih sooner
    obtain ⟨after, alike⟩ := before.render asks context renders renders' here
    rw [before.layout, before.serves.order, ← abreast.serves.order] at alike
    exact ⟨after, forall_mem_concat.mpr ⟨all, after, alike⟩⟩

end Plan.Abreast

/-! ## Each side -/

theorem Plan.Twins.run {first second plan twin : Plan ν} {blocks : List (Block ν × Block ν)}
    (twins : Twins first second blocks plan twin) :
    (∃ last, Run (Relation.ReflTransGen Plan.Touched) first (blocks.map Prod.fst) last ∧
      Relation.ReflTransGen Plan.Touched last plan) ∧
    ∃ last, Run (Relation.ReflTransGen Plan.Touched) second (blocks.map Prod.snd) last ∧
      Relation.ReflTransGen Plan.Touched last twin := by
  induction twins with
  | start => exact ⟨⟨first, .start, .refl⟩, second, .start, .refl⟩
  | command _ _ answer answer' ih =>
    obtain ⟨⟨last, run, touched⟩, last', run', touched'⟩ := ih
    exact ⟨⟨last, run, touched.tail (Command.touched answer).1⟩, last', run',
      touched'.tail (Command.touched answer').1⟩
  | @render earlier block twin _ context renders renders' ih =>
    obtain ⟨⟨last, run, touched⟩, last', run', touched'⟩ := ih
    rw [List.map_append, List.map_append]
    exact ⟨⟨block.after, run.render touched renders, .refl⟩, twin.after, run'.render touched' renders', .refl⟩

end Patchbay
