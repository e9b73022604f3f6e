import Patchbay.Proofs.Node.Uses
import Patchbay.Proofs.Render.Block

/-! A block is rendered to its end.

Every lane, node, delay and link that the stations ask for is there, each copy goes
between signals of one shape, and no sum of times leaves the range of counts. So
rendering can stop short only where a node does, and nodes that use nothing but
their ports find all they ask for.
-/

set_option autoImplicit false

namespace Patchbay

theorem Call.Orderly.of_uses {ν : Type} {call : Call ν} (uses : call.ports.Uses call.reply) (format : Format) :
    call.Orderly format :=
  ⟨fun _ all => all.accesses (uses.accesses all.within).1, uses.alike⟩

/-! ## Lines -/

namespace Format

variable {format : Format} {type : PortType} {capacity clock blockSize : Nat}

theorem Holds.apply_ok {line : PortDelay} {buffer : SignalBuffer} {delay : Nat}
    (holds : format.Holds capacity type line) (shapes : format.Shapes type buffer) (fits : delay ≤ capacity)
    (time : clock + 2 ^ 32 + capacity + blockSize < Count.limit) :
    ∃ result, line.apply buffer delay clock blockSize = .ok result := by
  have timely : ∀ frame : UInt32, clock + frame.toNat + delay < Count.limit := by
    intro frame
    have := frame.toNat_lt
    omega
  have stop : clock + blockSize < Count.limit := by omega
  cases holds with
  | audio channels length recalls =>
    cases shapes with
    | @audio _ block same size =>
      obtain ⟨history, recalls⟩ := recalls
      rw [← channels] at size
      obtain ⟨samples, after, answer, _⟩ := recalls.process size (length ▸ fits)
      simp only [PortDelay.apply, answer, ok_bind]
      exact ⟨_, rfl⟩
  | @midi queue room =>
    cases shapes with
    | @midi list size few =>
      obtain ⟨result, answer⟩ := queue.process_ok list (fun event _ => timely event.frame) stop
      simp only [PortDelay.apply, answer, ok_bind]
      exact ⟨_, rfl⟩
  | control =>
    cases shapes
    exact ⟨_, rfl⟩
  | @trigger queue room =>
    cases shapes with
    | @trigger list size few =>
      obtain ⟨result, answer⟩ := queue.process_ok list (fun event _ => timely event.frame) stop
      simp only [PortDelay.apply, answer, ok_bind]
      exact ⟨_, rfl⟩

end Format

/-! ## Stations -/

/-- What a station asks for is there: room for its delays, links, and merge space for
what it may sum. -/
structure Station.Provided (format : Format) (slots : List (PortType × Nat)) (bound links largest : Nat)
    (station : Station) : Prop where
  slotted : station.Slotted slots
  room : station.stop ≤ slots.length
  outputs : station.delayCapacity ≤ bound
  lines : ∀ line ∈ station.lines, line.capacity ≤ bound ∧ line.link < links
  feeds : ∀ feed ∈ station.feeds, ∃ slot, slots[feed.lane]? = some slot ∧
    ∀ channels, slot.1 = .audio channels → format.blockSize * max channels 1 ≤ largest

/-- What a station is shown has the shapes of its lanes, and no block is larger than the
largest input. -/
theorem Station.Provided.shown {format : Format} {slots : List (PortType × Nat)} {bound links largest : Nat}
    {station : Station} (provided : station.Provided format slots bound links largest) {lanes : Array Lane}
    (furnished : format.Furnished slots lanes) {inputs : List (List Source)}
    (shown : List.Forall₂ (List.Forall₂ (Feed.Shows lanes)) station.inputs inputs) :
    ∀ sources ∈ inputs, ∀ source ∈ sources, ∃ type, format.Shapes type source.buffer ∧
      ∀ block, source.buffer.audio? = some block → block.samples.size ≤ largest := by
  intro sources among source member
  obtain ⟨feeds, row, shown⟩ := exists_of_mem_right shown among
  obtain ⟨feed, cell, lane, atLane, rfl⟩ := exists_of_mem_right shown member
  obtain ⟨⟨type, room⟩, found, small⟩ := provided.feeds feed (List.mem_flatten.mpr ⟨feeds, row, cell⟩)
  have shapes := furnished.shapes found atLane
  refine ⟨type, shapes, ?_⟩
  intro block audio
  generalize lane.buffer = buffer at shapes audio
  cases shapes with
  | audio _ size =>
    cases audio
    rw [size]
    exact small _ rfl
  | midi | control | trigger => cases audio

/-- The monitor keeps an entry for every position and every link. -/
structure Monitor.Covers (positions links : Nat) (monitor : Monitor) : Prop where
  failed : monitor.failed.size = positions
  intrinsic : monitor.latencies.intrinsic.size = positions
  compensation : monitor.latencies.compensation.size = positions
  links : monitor.latencies.links.size = links

theorem Monitor.Follows.covers {ν : Type} [Node ν] {calls : List (Call ν)} {lost positions links : Nat}
    {before after : Monitor} (follows : Monitor.Follows calls lost before after)
    (covers : before.Covers positions links) : after.Covers positions links where
  failed := follows.size.trans covers.failed
  intrinsic := follows.known.trans covers.intrinsic
  compensation := follows.compensation ▸ covers.compensation
  links := follows.links ▸ covers.links

theorem Latencies.report_ok {latencies : Latencies} {position : Nat} (samples : Nat)
    (inside : position < latencies.intrinsic.size) : ∃ result, latencies.report position samples = .ok result := by
  unfold Latencies.report
  rw [itemAt_eq_ok.mpr (Array.getElem?_eq_getElem inside), ok_bind]
  split
  · exact ⟨_, rfl⟩
  · rw [replaceAt_eq_ok.mpr ⟨inside, rfl⟩, ok_bind]
    exact ⟨_, rfl⟩

namespace Progress

variable {ν : Type} {format : Format} {slots : List (PortType × Nat)} {bound links largest positions : Nat}
  {clock blockSize : Nat} {state next : Progress ν}

theorem exists_lane (furnished : format.Furnished slots state.lanes) {lane : Nat} {slot : PortType × Nat}
    (found : slots[lane]? = some slot) : ∃ item, state.lanes[lane]? = some item :=
  ⟨_, Array.getElem?_eq_getElem (furnished.size ▸ (List.getElem?_eq_some_iff.mp found).1)⟩

theorem fillLine_ok {line : RouteLine} {room : Nat} (furnished : format.Furnished slots state.lanes)
    (slot : slots[line.lane]? = some (line.type, line.capacity))
    (sourceSlot : slots[line.source]? = some (line.type, room)) (above : line.source < line.lane)
    (linked : line.link < state.monitor.latencies.links.size)
    (time : clock + 2 ^ 32 + line.capacity + blockSize < Count.limit) :
    ∃ result, state.fillLine clock blockSize line = .ok result := by
  obtain ⟨wanted, atLink⟩ : ∃ wanted, state.monitor.latencies.links[line.link]? = some wanted :=
    ⟨_, Array.getElem?_eq_getElem linked⟩
  obtain ⟨lane, atLane⟩ := exists_lane furnished slot
  obtain ⟨source, atSource⟩ := exists_lane furnished sourceSlot
  have shape := furnished.shapes sourceSlot atSource
  have fits : (state.monitor.clampDelay wanted line.capacity).1 ≤ line.capacity := by
    rw [(state.monitor.clampDelay_spec wanted line.capacity).1]
    exact Nat.min_le_right _ _
  obtain ⟨⟨spilled, buffer, queue⟩, applied⟩ := (furnished.holds slot atLane).apply_ok shape fits time
  unfold fillLine
  rw [itemAt_eq_ok.mpr atLink, ok_bind]
  dsimp only
  rw [itemAt_eq_ok.mpr atLane, ok_bind, if_neg (by omega), itemAt_eq_ok.mpr atSource]
  simp only [ok_bind, (furnished.shapes slot atLane).copyFrom_eq shape, applied]
  exact ⟨_, rfl⟩

theorem fillLines_ok {lines : List RouteLine} {start : Nat} (furnished : format.Furnished slots state.lanes)
    (slotOf : ∀ line ∈ lines, slots[line.lane]? = some (line.type, line.capacity))
    (sourceOf : ∀ line ∈ lines, line.source < start ∧ start ≤ line.lane ∧
      ∃ room, slots[line.source]? = some (line.type, room))
    (provided : ∀ line ∈ lines, line.capacity ≤ bound ∧ line.link < state.monitor.latencies.links.size)
    (time : clock + 2 ^ 32 + bound + blockSize < Count.limit) :
    ∃ result, lines.foldlM (fillLine clock blockSize) state = .ok result := by
  induction lines generalizing state with
  | nil => exact ⟨state, rfl⟩
  | cons line rest ih =>
    have slot := slotOf line List.mem_cons_self
    obtain ⟨before, above, room, sourceSlot⟩ := sourceOf line List.mem_cons_self
    obtain ⟨capacity, linked⟩ := provided line List.mem_cons_self
    obtain ⟨middle, filled⟩ := fillLine_ok furnished slot sourceSlot (by omega) linked
      (show clock + 2 ^ 32 + line.capacity + blockSize < Count.limit by omega)
    obtain ⟨_, _, _, furnished, _, _, _, counts⟩ := fillLine_spec furnished slot sourceSlot filled
    obtain ⟨result, others⟩ := ih furnished (fun other member => slotOf other (List.mem_cons_of_mem _ member))
      (fun other member => sourceOf other (List.mem_cons_of_mem _ member)) (by
        rw [counts]
        exact fun other member => provided other (List.mem_cons_of_mem _ member))
    exact ⟨result, by rw [List.foldlM_cons, filled, ok_bind, others]⟩

theorem delayLanes_ok {capacity delay lane count : Nat} {types : List PortType}
    (furnished : format.Furnished slots state.lanes) (fits : delay ≤ capacity) (length : types.length = count)
    (slotted : ∀ (port : Nat) type, types[port]? = some type → slots[lane + port]? = some (type, capacity))
    (time : clock + 2 ^ 32 + capacity + blockSize < Count.limit) :
    ∃ result, delayLanes delay clock blockSize lane count state = .ok result := by
  subst length
  induction types generalizing lane state with
  | nil => exact ⟨state, rfl⟩
  | cons type rest ih =>
    have slot : slots[lane]? = some (type, capacity) := slotted 0 type rfl
    obtain ⟨⟨buffer, line⟩, atLane⟩ := exists_lane furnished slot
    have shape := furnished.shapes slot atLane
    obtain ⟨⟨dropped, out, queue⟩, applied⟩ := (furnished.holds slot atLane).apply_ok shape fits time
    obtain ⟨shapes, holds⟩ := (furnished.holds slot atLane).apply shape fits applied
    rw [List.length_cons, delayLanes, itemAt_eq_ok.mpr atLane, ok_bind]
    simp only [applied, ok_bind]
    refine ih (furnished.set slot shapes holds) fun port other found => ?_
    rw [Nat.add_assoc, Nat.add_comm 1]
    exact slotted (port + 1) other found

theorem delayLanes_latencies {delay lane count : Nat}
    (answer : delayLanes delay clock blockSize lane count state = .ok next) :
    next.monitor.latencies = state.monitor.latencies := by
  induction count generalizing lane state with
  | zero =>
    cases answer
    rfl
  | succ count ih =>
    simp only [delayLanes, bind_eq_ok, Prod.exists] at answer
    obtain ⟨_, _, _, _, _, _, answer⟩ := answer
    exact (ih answer).trans rfl

section

variable {position start : Nat} {station : Station} (furnished : format.Furnished slots state.lanes)
  (provided : station.Provided format slots bound links largest)
  (covers : state.monitor.Covers positions links)
  (time : clock + 2 ^ 32 + bound + blockSize < Count.limit)

section

include furnished provided covers time

theorem arrange_ok (numbers : station.Numbers start) {node : ν} (atNode : state.nodes[position]? = some node) :
    ∃ ports next, state.arrange clock blockSize position station = .ok (node, ports, next) := by
  obtain ⟨middle, filled⟩ := fillLines_ok furnished provided.slotted.lines
    (fun line member =>
      have placed := numbers.line_lt line member
      ⟨placed.1, placed.2.1, provided.slotted.sources line member⟩)
    (fun line member => covers.links ▸ provided.lines line member) time
  obtain ⟨nodes, _, outside, furnished', _⟩ := fillLines_spec start (le_refl start) furnished numbers.lines
    provided.slotted.lines
    (fun line member => ⟨numbers.sources line member, provided.slotted.sources line member⟩) filled
  -- A feed reads a lane below the station's outputs.
  have shown : ∀ feeds ∈ station.inputs, ∃ sources, feeds.mapM (source middle.lanes station.base) = .ok sources := by
    intro feeds row
    refine mapM_ok_of_forall _ _ fun feed cell => ?_
    have among : feed ∈ station.feeds := List.mem_flatten.mpr ⟨feeds, row, cell⟩
    obtain ⟨slot, found, _⟩ := provided.feeds feed among
    obtain ⟨lane, atLane⟩ := exists_lane furnished' found
    exact ⟨_, source_eq_ok.mpr ⟨numbers.feeds feed among, lane, atLane, rfl⟩⟩
  obtain ⟨sources, shown⟩ := mapM_ok_of_forall _ _ shown
  have room : station.stop ≤ middle.lanes.size := furnished'.size ▸ provided.room
  unfold arrange
  rw [filled, ok_bind, shown, ok_bind, blankOutputs, if_neg (by omega), ok_bind, nodes,
    itemAt_eq_ok.mpr atNode, ok_bind]
  exact ⟨_, _, rfl⟩

theorem finish_ok [Node ν] (node : ν) (inside : position < positions) :
    ∃ next, state.finish clock blockSize position station node = .ok next := by
  obtain ⟨wanted, found⟩ : ∃ wanted, state.monitor.latencies.compensation[position]? = some wanted :=
    ⟨_, Array.getElem?_eq_getElem (covers.compensation ▸ inside)⟩
  obtain ⟨clamped, counts⟩ := state.monitor.clampDelay_spec wanted station.delayCapacity
  have fits : (state.monitor.clampDelay wanted station.delayCapacity).1 ≤ station.delayCapacity := by
    rw [clamped]
    exact Nat.min_le_right _ _
  have outputs := provided.outputs
  have furnished' : format.Furnished slots
      { state with monitor := (state.monitor.clampDelay wanted station.delayCapacity).2 }.lanes := furnished
  obtain ⟨middle, delayed⟩ := delayLanes_ok furnished' fits rfl (fun _ _ => provided.slotted.outputs)
    (show clock + 2 ^ 32 + station.delayCapacity + blockSize < Count.limit by omega)
  -- Delaying leaves the latencies alone, so the report finds its place.
  have known : position < middle.monitor.latencies.intrinsic.size := by
    obtain ⟨_, counted⟩ := counts
    rw [delayLanes_latencies delayed, counted]
    exact covers.intrinsic ▸ inside
  obtain ⟨⟨changed, latencies⟩, reported⟩ := middle.monitor.latencies.report_ok (Node.latency node) known
  unfold finish
  rw [itemAt_eq_ok.mpr found, ok_bind]
  simp only [delayed, reported, ok_bind]
  exact ⟨_, rfl⟩

end

theorem Arranged.spacious (provided : station.Provided format slots bound links largest) {node : ν} {ports : Ports}
    {fills : List Nat}
    (arranged : Arranged format slots clock blockSize position start station state node ports next fills)
    (space : largest ≤ state.space.audio.size) : ports.Within ∧ ports.inputs.Spacious := by
  have all : format.AllShape station.outputs ports.outputs := by
    rw [arranged.blank]
    exact format.allShape_silence station.outputs
  refine ⟨all.within, ?_⟩
  intro sources among source member block audio
  obtain ⟨_, _, small⟩ := provided.shown arranged.furnished arranged.shown sources among source member
  rw [arranged.merges]
  exact (small block audio).trans space

variable [Node ν] {keeps : ν → Prop}

include furnished provided covers time

theorem runStation_ok (acts : Node.Acts keeps) (context : Context) (numbers : station.Numbers start)
    (inside : position < positions) {node : ν} (atNode : state.nodes[position]? = some node) (kept : keeps node)
    (space : largest ≤ state.space.audio.size) :
    ∃ call next, state.runStation context clock blockSize position station = .ok (call, next) ∧
      call.ports.Uses call.reply ∧ keeps call.next := by
  obtain ⟨ports, ready, arranges⟩ := arrange_ok furnished provided covers time numbers atNode
  obtain ⟨fills, arranged⟩ := arrange_spec furnished numbers provided.slotted arranges
  obtain ⟨within, spacious⟩ := arranged.spacious provided space
  obtain ⟨outcome, after, reply, answer, uses, kept⟩ := acts.answers context kept within spacious
  let call : Call ν := { position, node, ports, outcome, next := after, reply }
  have orderly : call.Orderly format := .of_uses uses format
  obtain ⟨_, furnished', _, counts⟩ := collect_spec arranged.furnished provided.slotted
    (orderly.written arranged.blank) arranged.room
  have follows := Monitor.Follows.of_counts (ν := ν) (arranged.counts.trans counts)
  unfold runStation
  rw [arranges, ok_bind]
  simp only [answer, ok_bind]
  -- Only what did not fail goes through its lines.
  by_cases fails : call.fails = true
  · rw [if_pos fails]
    exact ⟨call, _, rfl, uses, kept⟩
  · rw [if_neg fails]
    obtain ⟨final, finished⟩ := finish_ok furnished' provided (follows.covers covers) time after inside
    rw [finished]
    exact ⟨call, final, rfl, uses, kept⟩

end

theorem runFrom_ok [Node ν] {keeps : ν → Prop} (acts : Node.Acts keeps) {context : Context} {position start : Nat}
    {stations : List Station} (numbered : Layout.Numbered start stations)
    (provided : ∀ station ∈ stations, station.Provided format slots bound links largest)
    (furnished : format.Furnished slots state.lanes) (covers : state.monitor.Covers positions links)
    (inside : position + stations.length ≤ positions)
    (nodes : ∀ index, position ≤ index → index < positions → ∃ node, state.nodes[index]? = some node ∧ keeps node)
    (space : largest ≤ state.space.audio.size) (time : clock + 2 ^ 32 + bound + blockSize < Count.limit) :
    ∃ calls next, runFrom context clock blockSize position stations state = .ok (calls, next) ∧
      ∀ call ∈ calls, call.ports.Uses call.reply := by
  induction stations generalizing start position state with
  | nil => exact ⟨[], state, rfl, by simp⟩
  | cons station later ih =>
    obtain ⟨numbers, numbered⟩ := numbered
    have providedLater := fun other member => provided other (List.mem_cons_of_mem station member)
    have here := provided station List.mem_cons_self
    rw [List.length_cons] at inside
    unfold runFrom
    by_cases failed : state.monitor.isFailedAt position = true
    · rw [if_pos failed]
      exact ih numbered providedLater furnished covers (by omega) (fun index above => nodes index (by omega)) space
    · rw [if_neg failed]
      obtain ⟨node, atNode, kept⟩ := nodes position (le_refl position) (by omega)
      obtain ⟨call, middle, visited, uses, _⟩ := runStation_ok furnished here covers time acts context
        numbers (by omega) atNode kept space
      obtain ⟨rfl, _, _, _, _, _, moves⟩ := runStation_spec furnished numbers here.slotted
        (by rw [covers.failed]; omega) visited (.of_uses uses format)
      -- The call changed no node but its own, so the later ones are as they were.
      obtain ⟨calls, final, passed, others⟩ := ih numbered providedLater moves.furnished
        (moves.monitor.covers covers) (show call.position + 1 + later.length ≤ positions by omega) (by
          intro index above within
          rw [moves.node_later above]
          exact nodes index (by omega) within) (moves.space.audio ▸ space)
      refine ⟨call :: calls, final, ?_, List.forall_mem_cons.mpr ⟨uses, others⟩⟩
      simp only [visited, passed, ok_bind]
      rfl

end Progress

end Patchbay
