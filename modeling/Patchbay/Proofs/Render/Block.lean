import Patchbay.Proofs.Render.Scratch
import Patchbay.Proofs.Render.Station

/-! One block of a plan.

Every station whose node has not failed is visited once, in render order. A later
visit changes nothing that an earlier one saw or wrote. The renderer keeps every room of
its space, so it goes on fitting the plan.
-/

set_option autoImplicit false

namespace Patchbay

variable {ν : Type} [Node ν] {format : Format} {slots : List (PortType × Nat)} {context : Context}
  {clock blockSize : Nat}

namespace Progress

variable {state middle next : Progress ν}

theorem Moves.refl (low : Nat) (furnished : format.Furnished slots state.lanes) :
    Moves format slots low [] 0 state state :=
  ⟨fun _ _ => rfl, furnished, .refl _, fun _ _ => rfl, .of_counts (.none _)⟩

theorem Moves.trans {low high lost more : Nat} {calls others : List (Call ν)}
    (first : Moves format slots low calls lost state middle)
    (second : Moves format slots high others more middle next) (above : low ≤ high) :
    Moves format slots low (calls ++ others) (lost + more) state next where
  below lane less := (second.below lane (by omega)).trans (first.below lane less)
  furnished := second.furnished
  space := first.space.trans second.space
  nodes position differ :=
    (second.nodes position fun call member => differ call (List.mem_append_right _ member)).trans
      (first.nodes position fun call member => differ call (List.mem_append_left _ member))
  monitor := first.monitor.trans second.monitor

theorem Moves.node_later {low lost index : Nat} {call : Call ν} (moves : Moves format slots low [call] lost state next)
    (later : call.position < index) : next.nodes[index]? = state.nodes[index]? := by
  apply moves.nodes
  intro made member
  rw [List.mem_singleton.mp member]
  exact later.ne

theorem runFrom_cons_eq_ok {position : Nat} {station : Station} {rest : List Station} {calls : List (Call ν)} :
    runFrom context clock blockSize position (station :: rest) state = .ok (calls, next) ↔
      (state.monitor.isFailedAt position = true ∧
        runFrom context clock blockSize (position + 1) rest state = .ok (calls, next)) ∨
      state.monitor.isFailedAt position = false ∧ ∃ call middle others,
        state.runStation context clock blockSize position station = .ok (call, middle) ∧
        runFrom context clock blockSize (position + 1) rest middle = .ok (others, next) ∧ calls = call :: others := by
  rw [runFrom]
  cases state.monitor.isFailedAt position with
  | true => simp
  | false =>
    simp only [Bool.false_eq_true, if_false, false_and, false_or, true_and, bind_eq_ok, pure_eq_ok, Prod.exists,
      Prod.mk.injEq]
    constructor
    · rintro ⟨call, middle, visited, others, _, passed, rfl, rfl⟩
      exact ⟨call, middle, others, visited, passed, rfl⟩
    · rintro ⟨call, middle, others, visited, passed, rfl⟩
      exact ⟨call, middle, visited, others, next, passed, rfl, rfl⟩

/-- What became of the calls from a position on. -/
structure Passes (format : Format) (slots : List (PortType × Nat)) (context : Context)
    (clock blockSize start position : Nat) (all stations : List Station) (state next : Progress ν)
    (calls : List (Call ν)) (losses : List Nat) : Prop where
  positions : calls.map (·.position) =
    (List.range' position stations.length).filter fun position => !state.monitor.isFailedAt position
  visits : List.Forall₂ (fun call lost => ∃ station first, all[call.position]? = some station ∧
    station.Numbers first ∧ start ≤ first ∧ Visit format state.monitor.latencies.compensation
      state.monitor.latencies.links context clock blockSize state.nodes state.lanes next.lanes station
      call lost) calls losses
  spaces : ∀ call ∈ calls, state.space.Alike call.ports.inputs.space
  stepped : ∀ call ∈ calls, next.nodes[call.position]? = some call.next
  idle : ∀ lane, (∀ call ∈ calls, ∀ station, all[call.position]? = some station →
    lane + station.lines.length < station.base ∨ station.stop ≤ lane) → next.lanes[lane]? = state.lanes[lane]?
  moves : Moves format slots start calls losses.sum state next

theorem Passes.position_ge {start position : Nat} {all stations : List Station} {calls : List (Call ν)}
    {losses : List Nat}
    (passes : Passes format slots context clock blockSize start position all stations state next calls losses) :
    ∀ call ∈ calls, position ≤ call.position := by
  intro call member
  have listed : call.position ∈ calls.map (·.position) := List.mem_map.mpr ⟨call, member, rfl⟩
  rw [passes.positions, List.mem_filter, List.mem_range'_1] at listed
  exact listed.1.1

section

variable {start position : Nat} {all later : List Station} {station : Station} {calls : List (Call ν)}
  {losses : List Nat} (numbers : station.Numbers start)
include numbers

theorem Passes.skip (failed : state.monitor.isFailedAt position = true)
    (furnished : format.Furnished slots state.lanes)
    (passes : Passes format slots context clock blockSize station.stop (position + 1) all later state next calls
      losses) :
    Passes format slots context clock blockSize start position all (station :: later) state next calls losses := by
  have reach : start ≤ station.stop := by
    rw [station.stop_eq numbers]
    omega
  refine ⟨?_, ?_, passes.spaces, passes.stepped, passes.idle, ?_⟩
  · rw [List.length_cons, List.range'_succ, List.filter_cons_of_neg (by simp [failed])]
    exact passes.positions
  · refine passes.visits.imp ?_
    rintro call lost ⟨other, first, found, numbers, above, visit⟩
    exact ⟨other, first, found, numbers, by omega, visit⟩
  · simpa using (Moves.refl start furnished).trans passes.moves reach

theorem Passes.visit {call : Call ν} {lost : Nat} (here : all[call.position]? = some station)
    (alive : state.monitor.isFailedAt call.position = false) (space : call.ports.inputs.space = state.space)
    (stepped : middle.nodes[call.position]? = some call.next)
    (outside : SameOutside start station.stop state.lanes middle.lanes)
    (visit : Visit format state.monitor.latencies.compensation state.monitor.latencies.links context clock blockSize
      state.nodes state.lanes middle.lanes station call lost)
    (moves : Moves format slots start [call] lost state middle)
    (passes : Passes format slots context clock blockSize station.stop (call.position + 1) all later middle next
      calls losses) :
    Passes format slots context clock blockSize start call.position all (station :: later) state next
      (call :: calls) (lost :: losses) := by
  have reach : start ≤ station.stop := by
    rw [station.stop_eq numbers]
    omega
  have follows := moves.monitor
  have past := passes.position_ge
  refine ⟨?_, .cons ?_ ?_, ?_, ?_, ?_, ?_⟩
  · rw [List.length_cons, List.range'_succ, List.filter_cons_of_pos (by simp [alive]), List.map_cons,
      passes.positions]
    congr 1
    -- The call only decided on its own node.
    refine List.filter_congr fun other member => ?_
    rw [List.mem_range'_1] at member
    rw [follows.failed]
    have apart : call.position ≠ other := by omega
    simp [apart]
  · exact ⟨station, start, here, numbers, le_refl start, visit.congr numbers rfl (fun _ _ => rfl)
      fun lane low => passes.moves.below lane low⟩
  · -- The later visits saw the first one's node and lanes as they were.
    refine ((List.forall₂_and_left _ _).mpr ⟨past, passes.visits⟩).imp ?_
    rintro other lost ⟨past, found, first, there, numbers, above, visit⟩
    rw [follows.compensation, follows.links] at visit
    have node : state.nodes[other.position]? = middle.nodes[other.position]? := by
      refine (moves.nodes _ fun made member => ?_).symm
      rw [List.mem_singleton.mp member]
      omega
    exact ⟨found, first, there, numbers, by omega, visit.congr numbers node
      (fun lane low => (outside.same (.inr (by omega))).symm) fun _ _ => rfl⟩
  · intro other member
    rcases List.mem_cons.mp member with rfl | among
    · exact space ▸ .refl _
    · exact moves.space.trans (passes.spaces other among)
  · intro other member
    rcases List.mem_cons.mp member with rfl | among
    · rw [passes.moves.nodes _ fun later among => ?_, stepped]
      have := past later among
      omega
    · exact passes.stepped other among
  · intro lane apart
    have base := numbers.base
    have first := apart call List.mem_cons_self station here
    exact (passes.idle lane fun other among => apart other (List.mem_cons_of_mem call among)).trans
      (outside.same (by omega))
  · exact moves.trans passes.moves reach

end

theorem runFrom_spec {start position : Nat} {all stations : List Station} {calls : List (Call ν)}
    (rest : all.drop position = stations) (numbered : Layout.Numbered start stations)
    (slotted : ∀ station ∈ stations, station.Slotted slots)
    (furnished : format.Furnished slots state.lanes)
    (inside : position + stations.length ≤ state.monitor.failed.size)
    (answer : runFrom context clock blockSize position stations state = .ok (calls, next))
    (orderly : ∀ call ∈ calls, call.Orderly format) :
    ∃ losses, Passes format slots context clock blockSize start position all stations state next calls
      losses := by
  induction stations generalizing start position state calls with
  | nil =>
    cases answer
    exact ⟨[], rfl, .nil, by simp, by simp, fun _ _ => rfl, .refl start furnished⟩
  | cons station later ih =>
    obtain ⟨numbers, numbered⟩ := numbered
    have slottedLater := fun other member => slotted other (List.mem_cons_of_mem station member)
    have here : all[position]? = some station := by
      rw [← List.head?_drop, rest]
      rfl
    have after : all.drop (position + 1) = later := by
      rw [← List.drop_drop, rest]
      rfl
    rw [List.length_cons] at inside
    rcases runFrom_cons_eq_ok.mp answer with
      ⟨failed, answer⟩ | ⟨running, call, middle, others, visited, passed, rfl⟩
    · obtain ⟨losses, passes⟩ := ih after numbered slottedLater furnished (by omega) answer orderly
      exact ⟨losses, .skip numbers failed furnished passes⟩
    · obtain ⟨rfl, space, stepped, outside, lost, visit, moves⟩ := runStation_spec furnished numbers
        (slotted station List.mem_cons_self) (by omega) visited (orderly call List.mem_cons_self)
      -- The visit leaves what the later stations need, furnished lanes and a mark for each.
      obtain ⟨losses, passes⟩ := ih after numbered slottedLater moves.furnished
        (by rw [moves.monitor.size]; omega) passed
        fun other member => orderly other (List.mem_cons_of_mem call member)
      exact ⟨lost :: losses, .visit numbers here running space stepped outside visit moves passes⟩

theorem runFrom_answers {position : Nat} {stations : List Station} {calls : List (Call ν)}
    (answer : runFrom context clock blockSize position stations state = .ok (calls, next)) :
    ∀ call ∈ calls, Node.process context call.node call.ports = .ok (call.outcome, call.next, call.reply) := by
  induction stations generalizing position state calls with
  | nil =>
    cases answer
    simp
  | cons station later ih =>
    rcases runFrom_cons_eq_ok.mp answer with ⟨_, answer⟩ | ⟨_, call, middle, others, visited, passed, rfl⟩
    · exact ih answer
    · obtain ⟨_, _, _, replied, _⟩ := runStation_parts visited
      intro other member
      rcases List.mem_cons.mp member with rfl | among
      · exact replied
      · exact ih passed other among

theorem runFrom_abidesBy {allowed : Ports → Ports → Prop} {keeps : ν → Prop} (abides : Node.AbidesBy allowed keeps)
    (orderly : ∀ call : Call ν, allowed call.ports call.reply → call.Orderly format) {start position : Nat}
    {stations : List Station} {calls : List (Call ν)} (numbered : Layout.Numbered start stations)
    (slotted : ∀ station ∈ stations, station.Slotted slots)
    (furnished : format.Furnished slots state.lanes)
    (inside : position + stations.length ≤ state.monitor.failed.size)
    (kept : ∀ (index : Nat) node, position ≤ index → state.nodes[index]? = some node → keeps node)
    (answer : runFrom context clock blockSize position stations state = .ok (calls, next)) :
    ∀ call ∈ calls, allowed call.ports call.reply ∧ keeps call.next := by
  induction stations generalizing start position state calls with
  | nil =>
    cases answer
    simp
  | cons station later ih =>
    obtain ⟨numbers, numbered⟩ := numbered
    have slottedLater := fun other member => slotted other (List.mem_cons_of_mem station member)
    rw [List.length_cons] at inside
    rcases runFrom_cons_eq_ok.mp answer with ⟨_, answer⟩ | ⟨_, call, middle, others, visited, passed, rfl⟩
    · exact ih numbered slottedLater furnished (by omega)
        (fun index node above => kept index node (by omega)) answer
    · have slottedHere := slotted station List.mem_cons_self
      obtain ⟨_, ready, arranged, replied, _⟩ := runStation_parts visited
      obtain ⟨fills, arranged⟩ := arrange_spec furnished numbers slottedHere arranged
      -- An allowed call is orderly, so the stations after this one still find furnished lanes.
      obtain ⟨within, keepsNext⟩ := abides (kept position call.node (le_refl position) arranged.node) replied
      obtain ⟨rfl, _, _, _, lost, _, moves⟩ := runStation_spec furnished numbers slottedHere (by omega) visited
        (orderly call within)
      have keptLater : ∀ (index : Nat) node, call.position + 1 ≤ index → middle.nodes[index]? = some node →
          keeps node := by
        intro index node above found
        rw [moves.node_later above] at found
        exact kept index node (by omega) found
      intro other member
      rcases List.mem_cons.mp member with rfl | among
      · exact ⟨within, keepsNext⟩
      · exact ih numbered slottedLater moves.furnished (by rw [moves.monitor.size]; omega) keptLater passed
          other among

theorem runFrom_abides {keeps : ν → Prop} (abides : Node.Abides keeps) {start position : Nat}
    {stations : List Station} {calls : List (Call ν)} (numbered : Layout.Numbered start stations)
    (slotted : ∀ station ∈ stations, station.Slotted slots)
    (furnished : format.Furnished slots state.lanes)
    (inside : position + stations.length ≤ state.monitor.failed.size)
    (kept : ∀ (index : Nat) node, position ≤ index → state.nodes[index]? = some node → keeps node)
    (answer : runFrom context clock blockSize position stations state = .ok (calls, next)) :
    ∀ call ∈ calls, call.Typed ∧ keeps call.next :=
  runFrom_abidesBy abides.accesses (fun _ typed => Call.Typed.orderly typed format) numbered
    slotted furnished inside kept answer

end Progress

/-! ## Rendering -/

/-- The layout's lanes are numbered in order and have the slots that its stations
need. -/
structure Layout.Sound (format : Format) (layout : Layout) : Prop where
  blockSize : layout.blockSize = format.blockSize
  eventCapacity : layout.eventCapacity = format.eventCapacity
  numbered : Numbered 0 layout.stations
  slotted : ∀ station ∈ layout.stations, station.Slotted layout.slots
  sink : ∃ channels room, layout.slots[layout.sinkLane]? = some (.audio channels, room) ∧
    layout.sinkChannels = max channels 1

theorem Layout.Sound.channels_pos {layout : Layout} (sound : layout.Sound format) : 0 < layout.sinkChannels := by
  obtain ⟨_, _, _, same⟩ := sound.sink
  omega

theorem Layout.Sound.sink_block {layout : Layout} (sound : layout.Sound format) {lanes : Array Lane}
    (furnished : format.Furnished layout.slots lanes) : ∃ sink block, lanes[layout.sinkLane]? = some sink ∧
      sink.buffer = .audio block ∧ block.channels = layout.sinkChannels ∧
      block.samples.size = layout.blockSize * layout.sinkChannels := by
  obtain ⟨channels, room, slot, same⟩ := sound.sink
  have inside := (List.getElem?_eq_some_iff.mp slot).1
  rw [← furnished.size] at inside
  have shapes := furnished.shapes slot (Array.getElem?_eq_getElem inside)
  refine ⟨lanes[layout.sinkLane], ?_⟩
  generalize lanes[layout.sinkLane].buffer = buffer at shapes ⊢
  cases shapes with
  | audio width size =>
    exact ⟨_, Array.getElem?_eq_getElem inside, rfl, width.trans same.symm, by rw [size, same, sound.blockSize]⟩

structure Plan.Ready (format : Format) (plan : Plan ν) : Prop where
  sound : plan.layout.Sound format
  furnished : format.Furnished plan.layout.slots plan.lanes
  marks : plan.monitor.failed.size = plan.layout.stations.length

def Plan.Keeps (keeps : ν → Prop) (plan : Plan ν) : Prop :=
  ∀ (position : Nat) node, plan.nodes[position]? = some node → keeps node

structure Rendered (format : Format) (clock : Nat) (plan : Plan ν) (context : Context)
    (calls : List (Call ν)) (losses : List Nat) (output : AudioBuffer) (after : Plan ν) : Prop where
  layout : after.layout = plan.layout
  positions : calls.map (·.position) = (List.range plan.layout.stations.length).filter
    fun position => !plan.monitor.isFailedAt position
  visits : List.Forall₂ (fun call lost => ∃ station, plan.layout.stations[call.position]? = some station ∧
    Visit format plan.monitor.latencies.compensation plan.monitor.latencies.links context clock
      plan.layout.blockSize plan.nodes plan.lanes after.lanes station call lost) calls losses
  wide : ∀ call ∈ calls, call.ports.inputs.space.Wide plan.layout
  stepped : ∀ call ∈ calls, after.nodes[call.position]? = some call.next
  others : ∀ position, (∀ call ∈ calls, call.position ≠ position) →
    after.nodes[position]? = plan.nodes[position]?
  idle : ∀ lane, (∀ call ∈ calls, ∀ station, plan.layout.stations[call.position]? = some station →
    lane + station.lines.length < station.base ∨ station.stop ≤ lane) → after.lanes[lane]? = plan.lanes[lane]?
  furnished : format.Furnished plan.layout.slots after.lanes
  monitor : Monitor.Follows calls losses.sum plan.monitor after.monitor
  output : ∃ sink, after.lanes[plan.layout.sinkLane]? = some sink ∧ sink.buffer = .audio output

theorem Rendered.ready {clock : Nat} {plan after : Plan ν} {calls : List (Call ν)} {losses : List Nat}
    {output : AudioBuffer} (rendered : Rendered format clock plan context calls losses output after)
    (ready : plan.Ready format) : after.Ready format := by
  refine ⟨rendered.layout ▸ ready.sound, ?_, ?_⟩
  · rw [rendered.layout]
    exact rendered.furnished
  · rw [rendered.layout, rendered.monitor.size]
    exact ready.marks

theorem Rendered.shape {clock : Nat} {plan after : Plan ν} {calls : List (Call ν)} {losses : List Nat}
    {output : AudioBuffer} (rendered : Rendered format clock plan context calls losses output after)
    (sound : plan.layout.Sound format) : output.channels = plan.layout.sinkChannels ∧
      output.samples.size = plan.layout.blockSize * plan.layout.sinkChannels := by
  obtain ⟨sink, atSink, audio⟩ := rendered.output
  obtain ⟨lane, block, there, same, shape⟩ := sound.sink_block rendered.furnished
  rw [atSink] at there
  cases there
  rw [audio] at same
  cases same
  exact shape

namespace Engine

variable {engine prepared rendered : Engine} {plan after : Plan ν} {moved : Context}
  {calls : List (Call ν)}

/-- A rendered block visits every station whose node has not failed, and answers
the sink's signal. -/
theorem render_spec (ready : plan.Ready format)
    (answer : engine.render plan context = .ok (calls, rendered, after, moved))
    (orderly : ∀ call ∈ calls, call.Orderly format) :
    ∃ clock losses, context.clock = .ok clock ∧ context.advance = .ok moved ∧
      Rendered format clock plan context calls losses rendered.output after := by
  obtain ⟨scratch, clock, state, sink, output, prepared, ticks, passed, atSink, emitted, rfl, rfl, advanced⟩ :=
    render_parts answer
  obtain ⟨_, _, _, wide, _, width⟩ := Scratch.fits_iff.mp (prepare_fits ready.sound.channels_pos prepared)
  obtain ⟨losses, passes⟩ := Progress.runFrom_spec List.drop_zero ready.sound.numbered ready.sound.slotted
    ready.furnished (by rw [Nat.zero_add, ready.marks]) passed orderly
  refine ⟨clock, losses, ticks, advanced, {
    layout := rfl
    positions := by simpa [List.range_eq_range'] using passes.positions
    visits := passes.visits.imp fun _ _ visited => by
      obtain ⟨station, _, found, _, _, visit⟩ := visited
      exact ⟨station, found, visit⟩
    wide := fun call member => wide.alike (passes.spaces call member)
    stepped := passes.stepped
    others := passes.moves.nodes
    idle := passes.idle
    furnished := passes.moves.furnished
    monitor := { passes.moves.monitor with }
    output := ⟨sink, atSink, ?_⟩ }⟩
  -- The sink's lane holds audio of the shape that the renderer was prepared for.
  obtain ⟨lane, block, there, audio, channels, _⟩ := ready.sound.sink_block passes.moves.furnished
  rw [atSink] at there
  cases there
  rw [audio] at emitted ⊢
  simp only [SignalBuffer.audio?, AudioBuffer.copyFrom] at emitted
  split at emitted
  · cases emitted
    have agree : block.channels = scratch.output.channels := channels.trans width.symm
    simp only [Engine.output, ← agree]
  · cases emitted

theorem render_answers (answer : engine.render plan context = .ok (calls, rendered, after, moved)) :
    ∀ call ∈ calls, Node.process context call.node call.ports = .ok (call.outcome, call.next, call.reply) := by
  obtain ⟨_, _, _, _, _, _, _, passed, _⟩ := render_parts answer
  exact Progress.runFrom_answers passed

/-- A renderer with a block of the plan's size renders as soon as the stations run. -/
theorem render_ok {clock : Nat} {scratch : Scratch} {state : Progress ν} (ready : plan.Ready format)
    (prepared : engine.prepare plan.layout = .ok ⟨scratch⟩)
    (size : scratch.output.samples.size = plan.layout.blockSize * plan.layout.sinkChannels)
    (ticks : context.clock = .ok clock)
    (passed : Progress.runFrom context clock plan.layout.blockSize 0 plan.layout.stations
      ⟨plan.nodes, plan.lanes, plan.monitor, scratch.space⟩ = .ok (calls, state))
    (orderly : ∀ call ∈ calls, call.Orderly format) (advances : context.advance = .ok moved) :
    ∃ rendered, engine.render plan context = .ok (calls, rendered,
      { plan with nodes := state.nodes, lanes := state.lanes, monitor := state.monitor.countBlock }, moved) := by
  obtain ⟨losses, passes⟩ := Progress.runFrom_spec List.drop_zero ready.sound.numbered ready.sound.slotted
    ready.furnished (by rw [Nat.zero_add, ready.marks]) passed orderly
  obtain ⟨sink, block, atSink, audio, _, whole⟩ := ready.sound.sink_block passes.moves.furnished
  refine ⟨⟨{ scratch with space := state.space, output := { scratch.output with samples := block.samples } }⟩, ?_⟩
  simp only [render, prepared, ticks, passed, itemAt_eq_ok.mpr atSink, audio, SignalBuffer.audio?, AudioBuffer.copyFrom,
    if_pos (whole.trans size.symm), advances, ok_bind, pure_eq_ok]

theorem new_renders {clock : Nat} {scratch : Scratch} {state : Progress ν} (ready : plan.Ready format)
    (unfit : Scratch.none.fits plan.layout = .ok false) (made : Scratch.forLayout plan.layout = .ok scratch)
    (ticks : context.clock = .ok clock)
    (passed : Progress.runFrom context clock plan.layout.blockSize 0 plan.layout.stations
      ⟨plan.nodes, plan.lanes, plan.monitor, scratch.space⟩ = .ok (calls, state))
    (orderly : ∀ call ∈ calls, call.Orderly format) (advances : context.advance = .ok moved) :
    ∃ rendered, Engine.new.render plan context = .ok (calls, rendered,
      { plan with nodes := state.nodes, lanes := state.lanes, monitor := state.monitor.countBlock }, moved) := by
  have prepared : Engine.new.prepare plan.layout = .ok ⟨scratch⟩ := by
    simp only [prepare, Engine.new, unfit, ok_bind, forLayout, made]
    rfl
  exact render_ok ready prepared (whole_new.of_prepare ready.sound.channels_pos prepared).2.2 ticks passed orderly advances

theorem render_abidesBy {allowed : Ports → Ports → Prop} {keeps : ν → Prop} (abides : Node.AbidesBy allowed keeps)
    (orderly : ∀ call : Call ν, allowed call.ports call.reply → call.Orderly format) (ready : plan.Ready format)
    (kept : plan.Keeps keeps) (answer : engine.render plan context = .ok (calls, rendered, after, moved)) :
    (∀ call ∈ calls, allowed call.ports call.reply) ∧ after.Keeps keeps := by
  have abiding : ∀ call ∈ calls, allowed call.ports call.reply ∧ keeps call.next := by
    obtain ⟨_, _, _, _, _, _, _, passed, _⟩ := render_parts answer
    exact Progress.runFrom_abidesBy abides orderly ready.sound.numbered ready.sound.slotted ready.furnished
      (by rw [Nat.zero_add, ready.marks]) (fun index node _ => kept index node) passed
  obtain ⟨clock, losses, _, _, done⟩ :=
    render_spec ready answer fun call member => orderly call (abiding call member).1
  refine ⟨fun call member => (abiding call member).1, ?_⟩
  intro index node found
  -- A node that was not called is the one that was there before.
  by_cases called : ∃ call ∈ calls, call.position = index
  · obtain ⟨call, member, rfl⟩ := called
    rw [done.stepped call member] at found
    cases found
    exact (abiding call member).2
  · rw [done.others index fun call member same => called ⟨call, member, same⟩] at found
    exact kept index node found

theorem render_rooms (ready : plan.Ready format) (orderly : ∀ call ∈ calls, call.Orderly format)
    (answer : engine.render plan context = .ok (calls, rendered, after, moved)) :
    ∃ prepared, engine.prepare plan.layout = .ok prepared ∧
      rendered.scratch.sourceRoom = prepared.scratch.sourceRoom ∧
      rendered.scratch.portRoom = prepared.scratch.portRoom ∧
      prepared.scratch.space.Alike rendered.scratch.space := by
  obtain ⟨scratch, _, state, _, _, prepares, _, passed, _, _, rfl, _⟩ := render_parts answer
  obtain ⟨_, passes⟩ := Progress.runFrom_spec List.drop_zero ready.sound.numbered ready.sound.slotted ready.furnished
    (by rw [Nat.zero_add, ready.marks]) passed orderly
  exact ⟨⟨scratch⟩, prepares, rfl, rfl, passes.moves.space⟩

theorem render_fits (ready : plan.Ready format) (orderly : ∀ call ∈ calls, call.Orderly format)
    (answer : engine.render plan context = .ok (calls, rendered, after, moved)) :
    rendered.scratch.fits plan.layout = .ok true ∧ rendered.Whole := by
  have positive := ready.sound.channels_pos
  obtain ⟨_, _, _, _, made⟩ := render_spec ready answer orderly
  obtain ⟨width, size⟩ := made.shape ready.sound
  have frames : rendered.output.frames = plan.layout.blockSize :=
    AudioBuffer.frames_eq (width ▸ positive) (size.trans (by rw [width]))
  obtain ⟨prepared, prepares, sourceRoom, portRoom, space⟩ := render_rooms ready orderly answer
  obtain ⟨few, sources, ports, wide, _⟩ := Scratch.fits_iff.mp (prepare_fits positive prepares)
  refine ⟨Scratch.fits_iff.mpr ⟨few, sourceRoom ▸ sources, portRoom ▸ ports, wide.alike space, frames, width⟩, ?_⟩
  unfold Whole
  rw [frames, width]
  exact size

end Engine

end Patchbay
