import Patchbay.Proofs.Render.Twins
import Patchbay.Proofs.Render.Unfailing

/-! Two renderers in step.

Rendering adds to a plan's counters and never looks at them, and whatever lies in a
renderer's merge space is overwritten before it is read. So a second renderer
makes the same calls of a plan, ends in the same faults and answers the same block,
also where the counters of its plan are ahead or news of a latency is still marked.
-/

set_option autoImplicit false

namespace Patchbay

/-- How far the counters of a plan are ahead, and whether a latency is marked as changed. -/
structure Tally where
  clamps : Nat := 0
  overflows : Nat := 0
  blocks : Nat := 0
  marked : Bool := false

def Latencies.mark (also : Bool) (latencies : Latencies) : Latencies :=
  { latencies with dirty := also || latencies.dirty }

theorem Latencies.report_mark (also : Bool) (latencies : Latencies) (position samples : Nat) :
    (latencies.mark also).report position samples =
      (fun (changed, after) => (changed, after.mark also)) <$> latencies.report position samples := by
  simp only [report, mark, map_bind]
  refine bind_congr fun old => ?_
  split
  · rfl
  · simp only [map_bind, map_pure, Bool.or_true]

theorem Latencies.refresh_mark (also : Bool) (latencies : Latencies) (graph : LatencyGraph) :
    (latencies.mark also).refresh graph =
      (fun (report, after) => (report, after.mark also)) <$> latencies.refresh graph := by
  simp only [refresh, map_bind]
  rfl

namespace Monitor

variable (tally : Tally) (monitor : Monitor)

def ahead : Monitor :=
  { monitor with
    latencies := monitor.latencies.mark tally.marked
    clamps := tally.clamps + monitor.clamps
    overflows := tally.overflows + monitor.overflows
    blocks := tally.blocks + monitor.blocks }

@[simp] theorem ahead_zero : monitor.ahead {} = monitor := by
  simp [ahead, Latencies.mark]

@[simp] theorem ahead_latencies : (monitor.ahead tally).latencies = monitor.latencies.mark tally.marked := rfl

@[simp] theorem ahead_links : (monitor.ahead tally).latencies.links = monitor.latencies.links := rfl

@[simp] theorem ahead_countOverflow (events : Nat) :
    (monitor.ahead tally).countOverflow events = (monitor.countOverflow events).ahead tally := by
  simp only [countOverflow, ahead, Nat.add_assoc]

@[simp] theorem ahead_clampDelay (wanted capacity : Nat) : (monitor.ahead tally).clampDelay wanted capacity =
    ((monitor.clampDelay wanted capacity).1, (monitor.clampDelay wanted capacity).2.ahead tally) := by
  unfold clampDelay
  split <;> rfl

theorem ahead_refresh : (monitor.ahead tally).refresh =
    (fun (report, after) => (report, after.ahead tally)) <$> monitor.refresh := by
  have graph : (monitor.ahead tally).graph = monitor.graph := rfl
  unfold refresh
  rw [ahead_latencies, graph, Latencies.refresh_mark]
  simp only [map_bind, bind_map_left]
  rfl

end Monitor

def Ports.mapSpace (change : MergeSpace → MergeSpace) (ports : Ports) : Ports :=
  { ports with inputs := { ports.inputs with space := change ports.inputs.space } }

namespace Progress

variable {ν : Type} (change : MergeSpace → MergeSpace) (tally : Tally) (state : Progress ν) (clock blockSize : Nat)

def shifted : Progress ν := { state with space := change state.space, monitor := state.monitor.ahead tally }

theorem fillLine_shifted (line : RouteLine) : (state.shifted change tally).fillLine clock blockSize line =
    shifted change tally <$> state.fillLine clock blockSize line := by
  simp only [fillLine, shifted, map_bind, Monitor.ahead_links, Monitor.ahead_clampDelay]
  refine bind_congr fun wanted => bind_congr fun lane => ?_
  split
  · rfl
  · simp only [map_bind, map_pure, Monitor.ahead_countOverflow]
    rfl

theorem fillLines_shifted (lines : List RouteLine) :
    lines.foldlM (fillLine clock blockSize) (state.shifted change tally) =
      shifted change tally <$> lines.foldlM (fillLine clock blockSize) state := by
  induction lines generalizing state with
  | nil => rfl
  | cons line rest ih => simp only [List.foldlM_cons, fillLine_shifted, map_bind, bind_map_left, ih]

theorem delayLanes_shifted (delay lane count : Nat) :
    delayLanes delay clock blockSize lane count (state.shifted change tally) =
      shifted change tally <$> delayLanes delay clock blockSize lane count state := by
  induction count generalizing lane state with
  | zero => rfl
  | succ count ih =>
    simp only [delayLanes, map_bind]
    refine bind_congr fun found => bind_congr fun delayed => ?_
    rw [← ih]
    simp only [shifted, Monitor.ahead_countOverflow]

theorem arrange_shifted (position : Nat) (station : Station) :
    (state.shifted change tally).arrange clock blockSize position station =
      (fun (node, ports, ready) => (node, ports.mapSpace change, ready.shifted change tally)) <$>
        state.arrange clock blockSize position station := by
  simp only [arrange, fillLines_shifted, map_bind, bind_map_left, map_pure]
  rfl

theorem finish_shifted [Node ν] (position : Nat) (station : Station) (node : ν) :
    (state.shifted change tally).finish clock blockSize position station node =
      shifted change tally <$> state.finish clock blockSize position station node := by
  simp only [finish, map_bind]
  refine bind_congr fun wanted => ?_
  have delayed := delayLanes_shifted change tally
    { state with monitor := (state.monitor.clampDelay wanted station.delayCapacity).2 } clock blockSize
    (state.monitor.clampDelay wanted station.delayCapacity).1 station.base station.outputs.length
  simp only [shifted, Monitor.ahead_clampDelay] at delayed ⊢
  rw [delayed]
  simp only [bind_map_left, map_pure]
  refine bind_congr fun delayed => ?_
  simp only [shifted, Monitor.ahead_latencies, Latencies.report_mark, bind_map_left]
  rfl

/-- The same state beside it, with space of its own. -/
abbrev beside (space : MergeSpace) : Progress ν := state.shifted (fun _ => space) tally

abbrev ahead : Progress ν := state.shifted id tally

end Progress

/-! ## Calls -/

variable {ν : Type}

/-- The same call once more, with merge space of its own. -/
structure Call.Mirrors [Node ν] (call other : Call ν) : Prop where
  position : other.position = call.position
  same : call.Matches other
  dropped : other.reply.inputs.dropped = call.reply.inputs.dropped

namespace Call.Mirrors

variable [Node ν] {call other : Call ν} (mirrors : call.Mirrors other)
include mirrors

theorem fails : other.fails = call.fails := by
  rw [Call.fails, Call.fails, mirrors.same.outcome]

theorem collect (space : MergeSpace) (tally : Tally) (state : Progress ν) (station : Station) :
    (state.beside tally space).collect station other =
      (state.collect station call).beside tally other.reply.inputs.space := by
  simp only [Progress.collect, Progress.shifted, mirrors.position, mirrors.same.next, mirrors.same.written,
    mirrors.dropped, Monitor.ahead_countOverflow]

end Call.Mirrors

variable [Node ν]

theorem Ports.ShowsSame.mirrors {most position : Nat} {node next : ν} {ports other reply reply' : Ports}
    {outcome : Outcome} (same : ports.ShowsSame most other) (after : reply.ShowsSame most reply') :
    Call.Mirrors ⟨position, node, ports, outcome, next, reply⟩ ⟨position, node, other, outcome, next, reply'⟩ := by
  refine ⟨rfl, ⟨rfl, same.sources, same.alike, rfl, rfl, ?_⟩, after.dropped⟩
  simp only [Call.written, after.outputs]

namespace Progress

variable {format : Format} {layout : Layout} {keeps : ν → Prop} {bound links : Nat} {space : MergeSpace}
  {tally : Tally} {state : Progress ν} {context : Context} {clock blockSize position start : Nat} {station : Station}

def settle (clock blockSize : Nat) (station : Station) (state : Progress ν) (call : Call ν) :
    Checked (Call ν × Progress ν) := do
  let next := state.collect station call
  if call.fails then
    return (call, { next with monitor := next.monitor.markFailed call.position })
  else return (call, ← next.finish clock blockSize call.position station call.next)

theorem runStation_eq : state.runStation context clock blockSize position station = (do
    let (node, ports, ready) ← state.arrange clock blockSize position station
    let (outcome, next, reply) ← Node.process context node ports
    ready.settle clock blockSize station ⟨position, node, ports, outcome, next, reply⟩) := rfl

theorem settle_ahead (call : Call ν) : (state.ahead tally).settle clock blockSize station call =
    (fun (call, next) => (call, next.ahead tally)) <$> state.settle clock blockSize station call := by
  have collected : (state.ahead tally).collect station call = (state.collect station call).ahead tally := by
    simp only [collect, shifted, Monitor.ahead_countOverflow, id]
  unfold settle
  dsimp only
  rw [collected, finish_shifted]
  split
  · rfl
  · simp only [bind_map_left, map_bind, map_pure]

theorem runStation_ahead : (state.ahead tally).runStation context clock blockSize position station =
    (fun (call, next) => (call, next.ahead tally)) <$> state.runStation context clock blockSize position station := by
  simp only [runStation_eq, arrange_shifted, bind_map_left, map_bind, settle_ahead]
  rfl

theorem runFrom_ahead (state : Progress ν) (stations : List Station) :
    runFrom context clock blockSize position stations (state.ahead tally) =
      (fun (calls, final) => (calls, final.ahead tally)) <$>
        runFrom context clock blockSize position stations state := by
  induction stations generalizing position state with
  | nil => rfl
  | cons station later ih =>
    unfold runFrom
    by_cases failed : state.monitor.isFailedAt position = true
    · rw [if_pos failed, if_pos (show (state.ahead tally).monitor.isFailedAt position = true from failed), ih]
    · rw [if_neg failed, if_neg (show ¬ (state.ahead tally).monitor.isFailedAt position = true from failed)]
      simp only [runStation_ahead, ih, bind_map_left, map_bind, map_pure]

theorem settle_inStep {call other : Call ν} (mirrors : call.Mirrors other) :
    InStep (fun visit visit' => visit.1.Mirrors visit'.1 ∧ visit'.2 = visit.2.beside tally other.reply.inputs.space)
      (state.settle clock blockSize station call)
      ((state.beside tally space).settle clock blockSize station other) := by
  unfold settle
  dsimp only
  rw [mirrors.fails, mirrors.collect, mirrors.position, mirrors.same.next, finish_shifted]
  split
  · exact .answer ⟨mirrors, rfl⟩
  · refine (InStep.map _ _).bind ?_
    rintro final _ - - rfl
    exact .answer ⟨mirrors, rfl⟩

/-- A node that is shown the same in another space makes the same call there. -/
theorem runStation_inStep (asks : Node.Asks ν) (abides : Node.Abides keeps)
    (capacity : layout.eventCapacity = format.eventCapacity) (member : station ∈ layout.stations)
    (provided : station.Provided format layout.slots bound links layout.maxInputSamples)
    (numbers : station.Numbers start) (furnished : format.Furnished layout.slots state.lanes)
    (kept : ∀ node, state.nodes[position]? = some node → keeps node) (wide : state.space.Wide layout)
    (also : space.Wide layout) :
    InStep (fun visit visit' => visit.1.Mirrors visit'.1 ∧ ∃ after, after.Wide layout ∧
        visit'.2 = visit.2.beside tally after)
      (state.runStation context clock blockSize position station)
      ((state.beside tally space).runStation context clock blockSize position station) := by
  rw [runStation_eq, runStation_eq, arrange_shifted]
  refine (InStep.map _ _).bind ?_
  rintro ⟨node, ports, ready⟩ _ here there rfl
  rw [← arrange_shifted] at there
  obtain ⟨_, arranged⟩ := arrange_spec furnished numbers provided.slotted here
  have furnished' : format.Furnished layout.slots (state.beside tally space).lanes := furnished
  obtain ⟨_, arranged'⟩ := arrange_spec furnished' numbers provided.slotted there
  have room : (ports.mapSpace fun _ => space).inputs.space.Wide layout := also
  have shows_ : ports.ShowsSame format.eventCapacity (ports.mapSpace fun _ => space) :=
    ⟨rfl, rfl, rfl, (arranged.merges ▸ wide).roomy capacity member arranged.furnished arranged.shown,
      room.roomy capacity member arranged'.furnished arranged'.shown⟩
  dsimp only
  refine (shows_.inStep (arranged.spacious provided wide.audio).2 (arranged'.spacious provided also.audio).2
    (asks context node)).bind ?_
  rintro ⟨outcome, next, reply⟩ ⟨outcome', next', reply'⟩ - answer ⟨outcomes, nexts, same⟩
  cases outcomes
  cases nexts
  -- A typed call leaves the other space as wide as it was.
  obtain ⟨typed, -⟩ := abides (kept node arranged.node) answer
  refine (settle_inStep (shows_.mirrors same)).mono ?_
  rintro visit visit' ⟨mirrors, beside⟩
  exact ⟨mirrors, _, room.alike (Ports.Accesses.alike typed), beside⟩

theorem runFrom_inStep (asks : Node.Asks ν) (abides : Node.Abides keeps)
    (capacity : layout.eventCapacity = format.eventCapacity) {stations : List Station}
    (among : ∀ station ∈ stations, station ∈ layout.stations)
    (provided : ∀ station ∈ stations, station.Provided format layout.slots bound links layout.maxInputSamples)
    (numbered : Layout.Numbered start stations) (furnished : format.Furnished layout.slots state.lanes)
    (inside : position + stations.length ≤ state.monitor.failed.size)
    (kept : ∀ (index : Nat) node, position ≤ index → state.nodes[index]? = some node → keeps node)
    (wide : state.space.Wide layout) (also : space.Wide layout) :
    InStep (fun passed passed' => List.Forall₂ Call.Mirrors passed.1 passed'.1 ∧ ∃ after, after.Wide layout ∧
        passed'.2 = passed.2.beside tally after)
      (runFrom context clock blockSize position stations state)
      (runFrom context clock blockSize position stations (state.beside tally space)) := by
  induction stations generalizing start position state space with
  | nil => exact .answer ⟨.nil, space, also, rfl⟩
  | cons station later ih =>
    obtain ⟨numbers, numbered⟩ := numbered
    have amongLater := fun other member => among other (List.mem_cons_of_mem station member)
    have providedLater := fun other member => provided other (List.mem_cons_of_mem station member)
    have here := provided station List.mem_cons_self
    rw [List.length_cons] at inside
    unfold runFrom
    by_cases failed : state.monitor.isFailedAt position = true
    · rw [if_pos failed, if_pos (show (state.beside tally space).monitor.isFailedAt position = true from failed)]
      exact ih amongLater providedLater numbered furnished (by omega)
        (fun index node above => kept index node (by omega)) wide also
    · rw [if_neg failed, if_neg (show ¬ (state.beside tally space).monitor.isFailedAt position = true from failed)]
      refine (runStation_inStep asks abides capacity (among station List.mem_cons_self) here numbers furnished
        (kept position · (le_refl position)) wide also).bind ?_
      rintro ⟨call, middle⟩ ⟨call', _⟩ visited - ⟨mirrors, after, also, rfl⟩
      -- The call was typed, so the stations after this one still find lanes and space as they need them.
      obtain ⟨_, ready, arranged, replied, _⟩ := runStation_parts visited
      obtain ⟨_, arranged⟩ := arrange_spec furnished numbers here.slotted arranged
      obtain ⟨typed, _⟩ := abides (kept position call.node (le_refl position) arranged.node) replied
      obtain ⟨rfl, _, _, _, _, _, moves⟩ := runStation_spec furnished numbers here.slotted (by omega) visited
        (Call.Typed.orderly typed format)
      refine (ih amongLater providedLater numbered moves.furnished (by rw [moves.monitor.size]; omega) ?_
        (wide.alike moves.space) also).bind ?_
      · intro index node above found
        rw [moves.node_later above] at found
        exact kept index node (by omega) found
      · rintro ⟨calls, final⟩ ⟨calls', _⟩ - - ⟨others, after, also, rfl⟩
        exact .answer ⟨.cons mirrors others, after, also, rfl⟩

end Progress

/-! ## Renderers -/

structure Scratch.Storable (scratch : Scratch) : Prop where
  audio : scratch.space.audio.size * 4 < Count.storageLimit
  events : scratch.space.midi.capacity * 8 < Count.storageLimit

structure Engine.Sound (engine : Engine) : Prop where
  whole : engine.Whole
  storable : engine.scratch.Storable

theorem Scratch.forLayout_storable {scratch : Scratch} {layout : Layout} (made : forLayout layout = .ok scratch) :
    scratch.Storable := by
  obtain ⟨⟨samples, few, _⟩, rfl⟩ := forLayout_eq_ok.mp made
  exact ⟨by rwa [blank, Array.size_replicate], few⟩

namespace Engine

variable {layout : Layout} {engine other prepared rendered : Engine}

theorem sound_new : Engine.new.Sound := ⟨whole_new, by decide, by decide⟩

theorem sound_forLayout (channels : 0 < layout.sinkChannels) (made : forLayout layout = .ok engine) : engine.Sound := by
  simp only [forLayout, bind_eq_ok, pure_eq_ok] at made
  obtain ⟨scratch, made, rfl⟩ := made
  exact ⟨(Scratch.forLayout_spec channels made).2, Scratch.forLayout_storable made⟩

namespace Sound

variable (sound : engine.Sound)
include sound

theorem prepare (channels : 0 < layout.sinkChannels) (answer : engine.prepare layout = .ok prepared) :
    prepared.Sound := by
  rcases prepare_eq_ok.mp answer with ⟨_, rfl⟩ | ⟨_, made⟩
  · exact sound
  · exact sound_forLayout channels made

/-- A renderer cannot be prepared exactly if a new one cannot be made. -/
theorem prepare_eq_error (output : layout.blockSize * max layout.sinkChannels 1 * 4 < Count.storageLimit)
    (fault : Fault) : engine.prepare layout = .error fault ↔ forLayout layout = .error fault := by
  unfold Engine.prepare
  cases merged : layout.mergedEvents with
  | error other => simp only [Scratch.fits, forLayout, Scratch.forLayout, merged, error_bind]
  | ok events =>
    obtain ⟨fits, decided⟩ := engine.scratch.fits_answers merged
    rw [decided, ok_bind]
    cases fits with
    | false => rfl
    -- Rooms that are large enough were made before, so smaller ones can be made.
    | true =>
      obtain ⟨_, _, _, wide, _⟩ := Scratch.fits_iff.mp decided
      obtain ⟨few, rfl⟩ := Count.mul_eq_ok.mp merged
      have samples := wide.audio
      have rooms := wide.midi
      have storable := sound.storable
      obtain ⟨scratch, made⟩ := Scratch.forLayout_ok merged (by have := storable.audio; omega)
        (by have := storable.events; omega) output
      simp only [forLayout, made, ok_bind, pure, Except.pure, reduceCtorEq, if_true]

end Sound

end Engine

/-- A plan that any renderer can take up. -/
structure Plan.Playable {ν : Type} (format : Format) (keeps : ν → Prop) (plan : Plan ν) : Prop where
  ready : plan.Ready format
  provided : ∃ bound links, ∀ station ∈ plan.layout.stations,
    station.Provided format plan.layout.slots bound links plan.layout.maxInputSamples
  storable : plan.layout.blockSize * max plan.layout.sinkChannels 1 * 4 < Count.storageLimit
  kept : plan.Keeps keeps

def Plan.ahead {ν : Type} (tally : Tally) (plan : Plan ν) : Plan ν :=
  { plan with monitor := plan.monitor.ahead tally }

@[simp] theorem Plan.ahead_zero {ν : Type} (plan : Plan ν) : plan.ahead {} = plan := by
  simp [ahead]

variable {ν : Type} [Node ν] {keeps : ν → Prop} {format : Format} {plan after : Plan ν} {context moved : Context}
  {engine other rendered : Engine} {calls : List (Call ν)}

omit [Node ν] in
theorem Plan.Playable.monitored (playable : plan.Playable format keeps) {monitor : Monitor}
    (marks : monitor.failed.size = plan.monitor.failed.size) : ({ plan with monitor } : Plan ν).Playable format keeps :=
  ⟨⟨playable.ready.sound, playable.ready.furnished, marks.trans playable.ready.marks⟩, playable.provided,
    playable.storable, playable.kept⟩

omit [Node ν] in
theorem Plan.Playable.ahead (playable : plan.Playable format keeps) (tally : Tally) :
    (plan.ahead tally).Playable format keeps := playable.monitored rfl

theorem CompiledFrom.playable {patch : Patch ν} {options : CompileOptions} {placed : List (Placed ν)} {survey : Survey}
    (compiled : CompiledFrom patch options placed survey plan)
    (all : ∀ id node, patch.node? id = some node → keeps node) : plan.Playable options.format keeps :=
  ⟨compiled.serves.ready, ⟨_, _, compiled.provided⟩, compiled.sink_storable.2, compiled.keeps all⟩

namespace Engine

theorem render_ahead (engine : Engine) (plan : Plan ν) (tally : Tally) (context : Context) :
    engine.render (plan.ahead tally) context =
      (fun (calls, rendered, after, moved) => (calls, rendered, after.ahead tally, moved)) <$>
        engine.render plan context := by
  have passes : ∀ clock space, Progress.runFrom context clock plan.layout.blockSize 0 plan.layout.stations
      ⟨plan.nodes, plan.lanes, plan.monitor.ahead tally, space⟩ =
      (fun (calls, final) => (calls, final.ahead tally)) <$>
        Progress.runFrom context clock plan.layout.blockSize 0 plan.layout.stations
          ⟨plan.nodes, plan.lanes, plan.monitor, space⟩ :=
    fun _ space => Progress.runFrom_ahead ⟨plan.nodes, plan.lanes, plan.monitor, space⟩ plan.layout.stations
  simp only [render, Plan.ahead, passes, bind_map_left, map_bind]
  refine bind_congr fun prepared => bind_congr fun clock => bind_congr fun passed => bind_congr fun sink => ?_
  split
  · simp only [map_bind, map_pure]
    rfl
  · simp only [map_bind, map_pure]
    rfl

theorem render_made (abides : Node.Abides keeps) (playable : plan.Playable format keeps)
    (answer : engine.render plan context = .ok (calls, rendered, after, moved)) :
    (∀ call ∈ calls, call.Orderly format) ∧ after.Keeps keeps ∧
      ∃ clock losses, Rendered format clock plan context calls losses rendered.output after := by
  obtain ⟨typed, kept⟩ := render_abidesBy abides.accesses (fun _ typed => Call.Typed.orderly typed format)
    playable.ready playable.kept answer
  have orderly := fun call member => Call.Typed.orderly (typed call member) format
  obtain ⟨clock, losses, _, _, made⟩ := render_spec playable.ready answer orderly
  exact ⟨orderly, kept, clock, losses, made⟩

theorem render_playable (abides : Node.Abides keeps) (playable : plan.Playable format keeps) (sound : engine.Sound)
    (answer : engine.render plan context = .ok (calls, rendered, after, moved)) :
    after.Playable format keeps ∧ after.layout = plan.layout ∧ rendered.Sound := by
  have ready := playable.ready
  obtain ⟨orderly, kept, _, _, made⟩ := render_made abides playable answer
  obtain ⟨prepared, prepares, _, _, space⟩ := render_rooms ready orderly answer
  have storable := (sound.prepare ready.sound.channels_pos prepares).storable
  refine ⟨⟨made.ready ready, made.layout ▸ playable.provided, made.layout ▸ playable.storable, kept⟩, made.layout,
    (render_fits ready orderly answer).2, ⟨?_, ?_⟩⟩
  · exact space.audio ▸ storable.audio
  · exact space.midi ▸ storable.events

/-- Two renderers take a plan through a block in step. -/
theorem render_inStep (asks : Node.Asks ν) (abides : Node.Abides keeps) (playable : plan.Playable format keeps)
    (sound : engine.Sound) (also : other.Sound) (tally : Tally) (context : Context) :
    InStep (fun block block' => List.Forall₂ Call.Mirrors block.1 block'.1 ∧ block'.2.1.output = block.2.1.output ∧
        block'.2.2 = (block.2.2.1.ahead tally, block.2.2.2))
      (engine.render plan context) (other.render (plan.ahead tally) context) := by
  have ready := playable.ready
  have positive := ready.sound.channels_pos
  obtain ⟨bound, links, provided⟩ := playable.provided
  unfold render
  refine (InStep.of_faults (fun fault => (sound.prepare_eq_error playable.storable fault).trans
    (also.prepare_eq_error playable.storable fault).symm) fun _ _ here there => And.intro here there).bind ?_
  rintro ⟨scratch⟩ ⟨scratch'⟩ - - ⟨prepares, prepares'⟩
  obtain ⟨wide, channels, size⟩ := sound.whole.of_prepare positive prepares
  obtain ⟨wide', channels', size'⟩ := also.whole.of_prepare positive prepares'
  refine (InStep.refl context.clock).bind ?_
  rintro clock _ - - rfl
  let start : Progress ν := ⟨plan.nodes, plan.lanes, plan.monitor, scratch.space⟩
  have furnished : format.Furnished plan.layout.slots start.lanes := ready.furnished
  refine (Progress.runFrom_inStep asks abides ready.sound.eventCapacity (fun station member => member) provided
    ready.sound.numbered furnished (by rw [Nat.zero_add, ready.marks]) (fun index node _ => playable.kept index node)
    wide wide').bind ?_
  rintro ⟨calls, state⟩ ⟨calls', _⟩ passed - ⟨mirrors, after, -, rfl⟩
  have typed := Progress.runFrom_abides abides ready.sound.numbered ready.sound.slotted ready.furnished
    (by rw [Nat.zero_add, ready.marks]) (fun index node _ => playable.kept index node) passed
  obtain ⟨_, passes⟩ := Progress.runFrom_spec List.drop_zero ready.sound.numbered ready.sound.slotted ready.furnished
    (by rw [Nat.zero_add, ready.marks]) passed fun call member => Call.Typed.orderly (typed call member).1 format
  obtain ⟨sink, block, atSink, audio, _, whole⟩ := ready.sound.sink_block passes.moves.furnished
  have found : itemAt state.lanes plan.layout.sinkLane = .ok sink := itemAt_eq_ok.mpr atSink
  have found' : itemAt (state.beside tally after).lanes (plan.ahead tally).layout.sinkLane = .ok sink := found
  have fits : block.samples.size = scratch.output.samples.size := whole.trans size.symm
  have fits' : block.samples.size = scratch'.output.samples.size := whole.trans size'.symm
  simp only [found, found', ok_bind, audio, SignalBuffer.audio?, AudioBuffer.copyFrom, if_pos fits, if_pos fits']
  refine (InStep.refl context.advance).bind ?_
  rintro moved _ - - rfl
  have agree : scratch'.output.channels = scratch.output.channels := channels'.trans channels.symm
  exact .answer ⟨mirrors, congrArg (AudioBuffer.mk block.samples) agree, rfl⟩

end Engine

end Patchbay
