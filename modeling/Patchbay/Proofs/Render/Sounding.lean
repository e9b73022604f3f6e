import Patchbay.Proofs.Patch.Performance
import Patchbay.Proofs.Render.Arrival
import Patchbay.Proofs.Render.Refinement
import Patchbay.Proofs.Render.Unfailing

/-! How a running plan sounds.

The nodes of the library never fail and keep their latencies, so a plan of them
renders with the delays that it was compiled with. All that its nodes write in a
run is what the patch plays, wherever blocks are cut, and the sink's lane carries
what the sink wrote after the sink's own wait.
-/

set_option autoImplicit false

namespace Patchbay

/-! ## One block -/

def Block.heard (block : Block Builtin) (count position : Nat) : List (Array Sample) :=
  ((block.callAt? position).map fun call => call.ports.inputs.mixed count 0 call.node.channels).getD []

def heard (blocks : List (Block Builtin)) (count position : Nat) : List (Array Sample) :=
  blocks.flatMap (·.heard count position)

theorem heard_concat (blocks : List (Block Builtin)) (block : Block Builtin) (count position : Nat) :
    heard (blocks ++ [block]) count position = heard blocks count position ++ block.heard count position := by
  simp [heard]

theorem SinkAt.channels_eq {patch : Patch Builtin} {placed : List (Placed Builtin)} {position port channels : Nat}
    {place : Placed Builtin} (sinkAt : SinkAt patch placed position port channels place) :
    channels = place.node.channels := by
  obtain ⟨spec, atPort, type⟩ := sinkAt.audio
  rw [Builtin.outputs_audio (List.mem_of_getElem? atPort)] at type
  cases type
  rfl

def Block.sounded {ν : Type} (block : Block ν) : List (Array Sample) :=
  (SignalBuffer.audio block.rendered.output).frames

def sounded {ν : Type} (blocks : List (Block ν)) : List (Array Sample) := blocks.flatMap (·.sounded)

variable {patch : Patch Builtin} {options : CompileOptions} {placed : List (Placed Builtin)} {survey : Survey}

section

variable {block : Block Builtin} {clock : Nat} {losses : List Nat} {call : Call Builtin} {place : Placed Builtin}
  (before : block.before.Serves patch options placed survey) (made : block.Made options.format clock losses)
  (member : call ∈ block.calls) (item : placed[call.position]? = some place)
include before made member item

theorem Block.Made.blocks_shown (port : Nat) : ∀ source ∈ call.ports.inputs.sources port,
    options.format.Shapes (.audio place.node.channels) source.buffer := by
  intro source among
  obtain ⟨spec, ⟨node, present, atPort⟩, shapes⟩ := made.shapes_shown before member item port source among
  rw [before.stations.surveyed.placement.present place (List.mem_of_getElem? item)] at present
  cases present
  rwa [Builtin.inputs_audio (List.mem_of_getElem? atPort)] at shapes

theorem Block.Made.played (positive : 0 < options.blockSize) (proper : call.node.Proper)
    (alike : place.node.Alike call.node) :
    call.node.Played (patch.connected place.id) (block.heard options.blockSize call.position) call.outcome call.next
      call.reply := by
  obtain ⟨station, found, stationed⟩ := before.stations.stationed item
  obtain ⟨_, visit⟩ := made.visit member found
  have shapes := made.blocks_shown before member item 0
  have connected : call.ports.inputs.isConnected 0 = patch.connected place.id := by
    have shown := before.stations.shown item found visit.shown 0
    unfold Inputs.isConnected Patch.connected
    generalize patch.edgesInto place.id 0 = entries, call.ports.inputs.sources 0 = sources at shown
    cases shown <;> rfl
  have blank := visit.blank
  rw [stationed.outputs, ← alike.outputs] at blank
  rw [← alike.channels] at shapes
  rw [← connected, Block.heard, made.callAt?_eq member]
  exact Builtin.played proper positive shapes blank visit.answer

end

/-! ## Runs -/

def Plan.streamOf {ν : Type} (plan : Plan ν) (blocks : List (Block ν)) (id : NodeId) (port : Nat) :
    List (Array Sample) :=
  written blocks ((plan.monitor.position? id).getD 0) port

/-- After some blocks no node has failed, no latency is new, and every node is where
the frames that it heard took it. -/
structure Plan.InPlay (patch : Patch Builtin) (size : Nat) (placed : List (Placed Builtin)) (latencies : Latencies)
    (blocks : List (Block Builtin)) (plan : Plan Builtin) : Prop where
  alive : ∀ position, plan.monitor.isFailedAt position = false
  latencies : plan.monitor.latencies = latencies
  nodes : ∀ {position : Nat} {place}, placed[position]? = some place → plan.nodes[position]? =
    some (stepAll (Builtin.tick (patch.connected place.id)) place.node (heard blocks size position)).2
  written : ∀ {position : Nat} {place}, placed[position]? = some place → ∀ port < (Node.outputs place.node).length,
    written blocks position port = (stepAll (Builtin.tick (patch.connected place.id)) place.node
      (heard blocks size position)).1.map (·.getD port #[])

section

variable {blocks : List (Block Builtin)} {block : Block Builtin} {clock : Nat} {losses : List Nat}
  {latencies : Latencies}

theorem Plan.InPlay.played (inPlay : block.before.InPlay patch options.blockSize placed latencies blocks)
    (positive : 0 < options.blockSize) (before : block.before.Serves patch options placed survey)
    (made : block.Made options.format clock losses) (fits : block.before.Keeps Builtin.Fits)
    (wide : ∀ place ∈ placed, place.node.Wide) {call : Call Builtin} (member : call ∈ block.calls) :
    ∃ place, placed[call.position]? = some place ∧ place.node.Alike call.node ∧
      call.node = (stepAll (Builtin.tick (patch.connected place.id)) place.node
        (heard blocks options.blockSize call.position)).2 ∧
      call.node.Played (patch.connected place.id) (block.heard options.blockSize call.position) call.outcome call.next
        call.reply := by
  obtain ⟨place, station, _, item, found, visit⟩ := made.visited before member
  have now := visit.node
  have alike := Builtin.stepAll_alike (patch.connected place.id) place.node
    (heard blocks options.blockSize call.position)
  rw [inPlay.nodes item, Option.some.injEq] at now
  rw [now] at alike
  exact ⟨place, item, alike, now.symm, made.played before member item positive
    ⟨alike.wide (wide place (List.mem_of_getElem? item)), fits _ _ visit.node⟩ alike⟩

theorem Plan.InPlay.rendered (inPlay : block.before.InPlay patch options.blockSize placed latencies blocks)
    (positive : 0 < options.blockSize) (before : block.before.Serves patch options placed survey)
    (made : block.Made options.format clock losses) (fits : block.before.Keeps Builtin.Fits)
    (wide : ∀ place ∈ placed, place.node.Wide)
    (known : ∀ {position : Nat} {place}, placed[position]? = some place →
      latencies.intrinsic[position]? = some (Node.latency place.node)) :
    block.after.InPlay patch options.blockSize placed latencies (blocks ++ [block]) := by
  have each := fun call (member : call ∈ block.calls) => inPlay.played positive before made fits wide member
  -- Nothing has failed, so every node is called, and no call fails.
  have calls : ∀ {position : Nat} {place}, placed[position]? = some place → ∃ call ∈ block.calls,
      call.position = position := by
    intro position place item
    obtain ⟨station, found, _⟩ := before.stations.stationed item
    exact made.exists_call found (inPlay.alive position)
  have runs : ∀ call ∈ block.calls, call.fails = false := by
    intro call member
    obtain ⟨_, _, _, _, played⟩ := each call member
    rw [Call.fails, played.done]
  refine ⟨?_, ?_, ?_, ?_⟩
  · intro position
    rw [made.2.monitor.failed, inPlay.alive, Bool.false_or, List.any_eq_false]
    intro call member
    simp [runs call member]
  · refine (made.2.monitor.steady fun call member _ => ?_).trans inPlay.latencies
    obtain ⟨place, item, alike, _, played⟩ := each call member
    have later := Builtin.stepAll_alike (patch.connected place.id) call.node
      (block.heard options.blockSize call.position)
    rw [← played.next] at later
    rw [inPlay.latencies, known item, (alike.trans later).latency]
  · intro position place item
    obtain ⟨call, member, rfl⟩ := calls item
    obtain ⟨_, again, _, now, played⟩ := each call member
    rw [item] at again
    cases again
    rw [made.2.stepped call member, played.next, heard_concat, stepAll_append, ← now]
  · intro position place item port inside
    obtain ⟨call, member, rfl⟩ := calls item
    obtain ⟨_, again, alike, now, played⟩ := each call member
    rw [item] at again
    cases again
    have frames := played.outputs port (alike.outputs ▸ inside)
    have wrote : block.written call.position port = (stepAll (Builtin.tick (patch.connected place.id)) call.node
        (block.heard options.blockSize call.position)).1.map (·.getD port #[]) := by
      simp only [Block.written, made.callAt?_eq member, Option.bind_some, Call.written, played.done, frames,
        Option.getD_some]
    rw [written_concat, heard_concat, stepAll_append, List.map_append, inPlay.written item port inside, wrote, now]

end

section

variable {plan last : Plan Builtin} {blocks : List (Block Builtin)}
  (compiled : CompiledFrom patch options placed survey plan)
  (proper : ∀ id node, patch.node? id = some node → node.Proper) (run : Run Eq plan blocks last)
include compiled proper run

omit compiled proper in
theorem Run.adjusted : Run Plan.Adjusted plan blocks last := run.mono fun _ _ same => same ▸ .refl _

theorem Run.fitting : last.Keeps Builtin.Fits ∧ ∀ block ∈ blocks, ∀ call ∈ block.calls, call.Typed :=
  (run.typed Builtin.abides_fitting (fun same => same ▸ .adjusted (.refl _)) (fun same kept => same ▸ kept)
    compiled.serves (compiled.keeps fun id node present => (proper id node present).fits)).2

theorem Run.orderly : ∀ block ∈ blocks, ∀ call ∈ block.calls, call.Orderly options.format :=
  fun block member call among => ((run.fitting compiled proper).2 block member call among).orderly options.format

theorem Run.inPlay : last.InPlay patch options.blockSize placed plan.monitor.latencies blocks := by
  obtain ⟨_, _, _, _, _, assembled⟩ := compiled.assembled
  have wide : ∀ place ∈ placed, place.node.Wide := fun place member =>
    (proper place.id place.node (compiled.surveyed.placement.present place member)).wide
  induction run with
  | start =>
    refine ⟨?_, rfl, ?_, fun _ _ _ => rfl⟩
    · intro position
      rw [Monitor.isFailedAt, assembled.failed, Array.getD_eq_getD_getElem?, Array.getElem?_replicate]
      split <;> rfl
    · intro position place item
      rw [assembled.nodes, List.getElem?_toArray, List.getElem?_map, item]
      rfl
  | @render earlier now block sooner same renders ih =>
    -- A run under `Eq` renders the plan as the last block left it.
    subst same
    have whole : Run Eq plan (earlier ++ [block]) block.after := sooner.render rfl renders
    obtain ⟨before, _, clock, losses, made⟩ :=
      whole.adjusted.made compiled.serves (whole.orderly compiled proper) block (by simp)
    refine ih.rendered compiled.checks.blockSize before made (sooner.fitting compiled proper).1 wide ?_
    intro position place item
    rw [assembled.intrinsic, compiled.surveyed.intrinsic, List.getElem?_toArray, List.getElem?_map, item]
    rfl

/-! ## What the patch plays -/

theorem Run.inPlay_before {index : Nat} {block : Block Builtin} (atIndex : blocks[index]? = some block) :
    block.before.InPlay patch options.blockSize placed plan.monitor.latencies (blocks.take index) := by
  obtain ⟨_, sooner, same, _⟩ := run.upTo atIndex
  exact same ▸ sooner.inPlay compiled proper

variable {alignment : Alignment} (compensation : plan.monitor.latencies.compensation = alignment.values)
  (links : plan.monitor.latencies.links = alignment.links)
  (aligns : survey.graph.align survey.intrinsic = .ok alignment)

include compensation links in
theorem Run.publishes : PublishedFrom 0 alignment blocks := by
  intro index block _ atIndex
  rw [(run.inPlay_before compiled proper atIndex).latencies]
  exact ⟨compensation, links⟩

include compensation links aligns in
/-- An edge brings what its producer wrote as much earlier as the edge lags. -/
theorem Run.brings {position producer : Nat} {place : Placed Builtin} {station : Station} {id : EdgeId} {edge : Edge}
    {type : PortType} {feed : Feed} (item : placed[position]? = some place) (edgeAt : patch.edge? id = some edge)
    (into : edge.dest = place.id) (found : plan.layout.stations[position]? = some station)
    (routed : edge.Routed placed survey plan.layout.stations station position producer type feed) {index : Nat}
    {block : Block Builtin} (atIndex : blocks[index]? = some block) {frame : Nat}
    (inside : frame < options.blockSize) :
    (block.carried feed.lane)[frame]? = some (audible place.node.channels
      (earlierBy (edge.lag patch.latency (plan.arrivalOf alignment))
        (plan.streamOf blocks edge.source edge.sourcePort) (index * options.blockSize + frame))) := by
  have serves := compiled.serves
  have surveyed := compiled.surveyed
  have orderly := run.orderly compiled proper
  have aligned := LatencyGraph.align_aligned surveyed.inOrder aligns
  obtain ⟨spec, ⟨node, present, atPort⟩, rfl⟩ := serves.stations.input_type edgeAt routed
  rw [into, surveyed.placement.present place (List.mem_of_getElem? item)] at present
  cases present
  rw [Builtin.inputs_audio (List.mem_of_getElem? atPort)] at routed
  have alive := run.adjusted.alive serves orderly ((run.inPlay compiled proper).alive producer) block
    (List.mem_of_getElem? atIndex)
  obtain ⟨heard, carried, late⟩ := run.adjusted.hears serves (compiled.recalls_nil serves) orderly aligned
    surveyed.intrinsic_le (run.publishes compiled proper compensation links) routed found atIndex
    ((run.inPlay_before compiled proper atIndex).alive position) alive inside (.inl rfl)
  obtain ⟨origin, source, sourceIs⟩ := routed.source
  rw [carried, late.eq_audible, Edge.lag, Plan.streamOf, into, ← sourceIs, serves.arrivalOf_eq item,
    serves.arrivalOf_eq source, serves.position?_eq source, ← surveyed.latency_agrees source, Nat.sub_sub]
  rfl

include compensation links aligns in
theorem Run.heard_eq {position : Nat} {place : Placed Builtin} (item : placed[position]? = some place) :
    heard blocks options.blockSize position = (List.range (blocks.length * options.blockSize)).map
      (patch.incoming (Edge.lag patch.latency (plan.arrivalOf alignment)) (plan.streamOf blocks) place.id
        place.node.channels) := by
  have serves := compiled.serves
  obtain ⟨station, found, _⟩ := serves.stations.stationed item
  refine flatMap_eq_map_range fun index block atIndex => ?_
  obtain ⟨before, layout, clock, losses, made⟩ :=
    run.adjusted.made serves (run.orderly compiled proper) block (List.mem_of_getElem? atIndex)
  have inPlay := run.inPlay_before compiled proper atIndex
  rw [← layout] at found
  obtain ⟨call, member, rfl⟩ := made.exists_call found (inPlay.alive position)
  obtain ⟨_, visit⟩ := made.visit member found
  have channels : call.node.channels = place.node.channels := by
    have now := visit.node
    rw [inPlay.nodes item, Option.some.injEq] at now
    exact now ▸ (Builtin.stepAll_alike ..).channels
  rw [Block.heard, made.callAt?_eq member, Option.map_some, Option.getD_some, channels]
  refine List.map_congr_left fun frame inside => congrArg (mixFrames _) ?_
  -- Frame by frame, the sources that are shown are the edges in their order.
  have shown := before.stations.shown item found visit.shown 0
  rw [← List.forall₂_eq_eq_eq, List.forall₂_map_left_iff, List.forall₂_map_right_iff]
  refine (forall₂_ranked shown).flip.imp ?_
  rintro source ⟨id, edge⟩ ⟨⟨into, producer, type, feed, routed, _, lane, atLane, rfl⟩, rank, atRank, _⟩
  have edgeAt := (Patch.mem_edgesInto.mp (List.mem_of_getElem? atRank)).1
  have brought := run.brings compiled proper compensation links aligns item edgeAt into (layout ▸ found)
    (layout ▸ routed) atIndex (List.mem_range.mp inside)
  rw [Block.carried, atLane, Option.map_some, Option.getD_some] at brought
  rw [routed.gain, List.getD_eq_getElem?_getD, brought, Option.getD_some]

include compensation links aligns in
/-- The streams of a run are a performance of its patch. -/
theorem Run.performs : patch.Performs (Edge.lag patch.latency (plan.arrivalOf alignment))
    (blocks.length * options.blockSize) (plan.streamOf blocks) where
  plays {id node} present port inside := by
    obtain ⟨position, item⟩ := compiled.surveyed.placement.exists_position present
    rw [Plan.streamOf, compiled.serves.position?_eq item, Option.getD_some,
      (run.inPlay compiled proper).written item port inside,
      run.heard_eq compiled proper compensation links aligns item]

/-! ## What is answered -/

omit compiled proper run in
theorem Block.Made.carried_sink {ν : Type} [Node ν] {format : Format} {block : Block ν} {clock : Nat} {losses : List Nat}
    (made : block.Made format clock losses) : block.sounded = block.carried block.before.layout.sinkLane := by
  obtain ⟨sink, atSink, output⟩ := made.2.output
  rw [Block.carried, atSink, Option.map_some, Option.getD_some, output]
  rfl

omit proper run in
include compensation aligns in
theorem CompiledFrom.exists_sink : ∃ position port place wait,
    SinkAt patch placed position port place.node.channels place ∧ alignment.values[position]? = some wait ∧
      plan.monitor.compensation? place.id = some wait := by
  have surveyed := compiled.surveyed
  have aligned := LatencyGraph.align_aligned surveyed.inOrder aligns
  obtain ⟨position, port, channels, place, _, sinkAt, _⟩ := compiled.serves.sink
  obtain ⟨wait, waits⟩ : ∃ wait, alignment.values[position]? = some wait := by
    refine ⟨_, Array.getElem?_eq_getElem ?_⟩
    rw [aligned.values_size, surveyed.size]
    exact (List.getElem?_eq_some_iff.mp sinkAt.item).1
  refine ⟨position, port, place, wait, sinkAt.channels_eq ▸ sinkAt, waits, ?_⟩
  rw [Monitor.compensation?, compiled.serves.position?_eq sinkAt.item, compensation]
  exact waits

include compensation links aligns in
/-- A run answers with what the sink wrote, after the sink's wait. -/
theorem Run.sounds {position port wait : Nat} {place : Placed Builtin}
    (sinkAt : SinkAt patch placed position port place.node.channels place)
    (waits : alignment.values[position]? = some wait) :
    patch.SoundsThrough (Edge.lag patch.latency (plan.arrivalOf alignment)) place.id port place.node.channels wait
      (blocks.length * options.blockSize) (plan.streamOf blocks) (sounded blocks) := by
  have serves := compiled.serves
  have surveyed := compiled.surveyed
  have orderly := run.orderly compiled proper
  have aligned := LatencyGraph.align_aligned surveyed.inOrder aligns
  obtain ⟨_, _, _, _, station, again, found, lane⟩ := serves.sink
  obtain ⟨rfl, rfl⟩ := sinkAt.unique surveyed.placement again
  obtain ⟨spec, atPort, type⟩ := sinkAt.audio
  have present := surveyed.placement.present place (List.mem_of_getElem? sinkAt.item)
  have typed := (serves.stations.output_iff sinkAt.item found).mpr ⟨spec, ⟨_, present, atPort⟩, type⟩
  have performs := run.performs compiled proper compensation links aligns
  have whole := performs.length present (List.getElem?_eq_some_iff.mp atPort).1
  refine ⟨performs, whole, ?_⟩
  have answered : sounded blocks = carried blocks plan.layout.sinkLane := by
    refine List.flatMap_congr fun block member => ?_
    obtain ⟨_, layout, _, _, made⟩ := run.adjusted.made serves orderly block member
    rw [made.carried_sink, layout]
  have slot := (serves.ready.sound.slotted station (List.mem_of_getElem? found)).outputs typed
  have length := run.adjusted.length_carried serves orderly slot
  have fits := serves.stations.wait_le found waits aligned surveyed.intrinsic_le
  have stream : ∀ index < blocks.length * options.blockSize, (carried blocks plan.layout.sinkLane)[index]? = _ :=
    fun index inside => lane ▸ run.adjusted.output_stream serves (compiled.recalls_nil serves) orderly found typed fits
      ((run.inPlay compiled proper).alive position)
      (fun _ block late atIndex =>
        (run.publishes compiled proper compensation links _ block late atIndex).1 ▸ waits)
      (Nat.zero_mul _ ▸ Nat.zero_le index) inside
  rw [answered, late, whole, Plan.streamOf, serves.position?_eq sinkAt.item, Option.getD_some]
  refine List.ext_getElem? fun index => ?_
  -- Within the run the sink's lane tells every frame; beyond it both sides have ended.
  rcases Nat.lt_or_ge index (blocks.length * options.blockSize) with inside | outside
  · rw [stream index inside, List.getElem?_map, List.getElem?_range inside, Option.map_some]
  · rw [List.getElem?_eq_none (lane ▸ length.trans_le outside), List.getElem?_eq_none (by simpa using outside)]

end

end Patchbay
