import Patchbay.Proofs.Render.Reads
import Patchbay.Proofs.Signal.Events

/-! What event lines hold and give out over a run.

A line holds what went into it and is not due yet. It never refuses an event, and
gives out in each block what falls due in it, up to the length of a list.
-/

set_option autoImplicit false

namespace Patchbay

/-! ## One block through a line -/

/-- Each block brings no more events than a list holds, all of them inside the
block. -/
structure Format.Admits (format : Format) (history : List (List (Event Message))) : Prop where
  inside : Inside format.blockSize history
  few : ∀ events ∈ history, events.length ≤ format.eventCapacity

namespace Format

variable {format : Format} {history : List (List (Event Message))} {events : List (Event Message)}

theorem Admits.nil : format.Admits [] := ⟨nofun, nofun⟩

theorem Admits.concat (admits : format.Admits history) (few : events.length ≤ format.eventCapacity)
    (inside : ∀ event ∈ events, event.frame.toNat < format.blockSize) :
    format.Admits (history ++ [events]) :=
  ⟨forall_mem_concat.mpr ⟨admits.inside, inside⟩, forall_mem_concat.mpr ⟨admits.few, few⟩⟩

theorem Admits.before (admits : format.Admits (history ++ [events])) : format.Admits history :=
  ⟨(forall_mem_concat.mp admits.inside).1, (forall_mem_concat.mp admits.few).1⟩

theorem Admits.room (admits : format.Admits history) (positive : 0 < format.blockSize) {start delay capacity : Nat}
    (fits : delay ≤ capacity) (few : events.length ≤ format.eventCapacity) :
    delay = 0 ∧ underway start format.blockSize delay history = [] ∨
      (underway start format.blockSize delay history).length + events.length ≤ format.places capacity := by
  by_cases instant : delay = 0
  · subst instant
    exact .inl ⟨rfl, underway_zero admits.inside⟩
  · have held := @length_underway_le _ start _ delay _ _ positive admits.inside admits.few
    have spans : (delay + format.blockSize - 1) / format.blockSize ≤
        (capacity + format.blockSize - 1) / format.blockSize := Nat.div_le_div_right (by omega)
    have := Nat.mul_le_mul_left format.eventCapacity spans
    rw [places, if_neg (by omega), Nat.max_eq_left positive, Nat.mul_succ]
    exact .inr (by omega)

end Format

def Holding (format : Format) (lanes : Array Lane) (lane start delay : Nat)
    (history : List (List (Event Message))) : Prop :=
  ∃ item, lanes[lane]? = some item ∧ item.delay.pending = underway start format.blockSize delay history

/-- A lane carries what has arrived in the newest block, up to the length of a list,
and the rest is lost. -/
structure Delivers (format : Format) (lanes : Array Lane) (lane start delay lost : Nat)
    (history : List (List (Event Message))) (index : Nat) : Prop where
  events : ∃ item, lanes[lane]? = some item ∧ SameBy Event.frame item.buffer.events
    ((arriving start format.blockSize delay history index).take format.eventCapacity)
  lost : lost = (arriving start format.blockSize delay history index).length - format.eventCapacity

/-- An event signal goes through a line and comes out as late as the delay. -/
theorem Takes.delivers {format : Format} {clock start lane capacity delay lost : Nat} {type : PortType}
    {before after : Array Lane} {signal : SignalBuffer} {history : List (List (Event Message))}
    (takes : Takes clock format.blockSize before after lane signal delay lost)
    (holds : ∀ item, before[lane]? = some item → format.Holds capacity type item.delay)
    (shapes : format.Shapes type signal) (timed : type.Timed) (fits : delay ≤ capacity)
    (positive : 0 < format.blockSize) (now : clock = start + history.length * format.blockSize)
    (holding : Holding format before lane start delay history)
    (admits : format.Admits (history ++ [signal.events])) :
    Holding format after lane start delay (history ++ [signal.events]) ∧
      Delivers format after lane start delay lost (history ++ [signal.events]) history.length := by
  obtain ⟨old, next, found, made, applied⟩ := takes
  obtain ⟨_, there, pending⟩ := holding
  rw [found] at there
  cases there
  have room : delay = 0 ∧ old.delay.pending = [] ∨
      old.delay.pending.length + signal.events.length ≤ format.places capacity :=
    pending ▸ admits.before.room positive fits shapes.length_events_le
  have passes := (holds old found).passes shapes timed room (admits.inside signal.events (by simp)) applied
  subst now
  refine ⟨⟨next, made, ?_⟩, ⟨next, made, ?_⟩, ?_⟩
  · rw [passes.pending, underway_concat, pending]
  · rw [arriving_newest, ← pending]
    exact passes.events
  · rw [arriving_newest, ← pending, List.length_map]
    exact passes.lost

theorem Delivers.inside {format : Format} {lanes : Array Lane} {lane start delay lost index : Nat}
    {history : List (List (Event Message))}
    (delivers : Delivers format lanes lane start delay lost history index) {item : Lane}
    (found : lanes[lane]? = some item) :
    ∀ event ∈ item.buffer.events, event.frame.toNat < format.blockSize := by
  obtain ⟨⟨_, there, events⟩, _⟩ := delivers
  rw [found] at there
  cases there
  intro event member
  exact frame_lt_of_mem_arriving (List.mem_of_mem_take (events.perm.mem_iff.mp member))

/-! ## Event streams -/

variable {ν : Type}

def Block.emitted (block : Block ν) (position port : Nat) : List (Event Message) :=
  (((block.callAt? position).bind (·.written[port]?)).map SignalBuffer.events).getD []

def Block.relayed (block : Block ν) (lane : Nat) : List (Event Message) :=
  ((block.after.lanes[lane]?).map (·.buffer.events)).getD []

def emissions (blocks : List (Block ν)) (position port : Nat) : List (List (Event Message)) :=
  blocks.map (·.emitted position port)

def relays (blocks : List (Block ν)) (lane : Nat) : List (List (Event Message)) :=
  blocks.map (·.relayed lane)

theorem emissions_concat (blocks : List (Block ν)) (block : Block ν) (position port : Nat) :
    emissions (blocks ++ [block]) position port = emissions blocks position port ++ [block.emitted position port] :=
  List.map_append ..

theorem relays_concat (blocks : List (Block ν)) (block : Block ν) (lane : Nat) :
    relays (blocks ++ [block]) lane = relays blocks lane ++ [block.relayed lane] :=
  List.map_append ..

theorem Block.relayed_eq {block : Block ν} {lane : Nat} {item : Lane}
    (found : block.after.lanes[lane]? = some item) : block.relayed lane = item.buffer.events := by
  rw [relayed, found]
  rfl

def EmitsInside (size : Nat) (block : Block ν) : Prop :=
  ∀ call ∈ block.calls, ∀ signal ∈ call.written, ∀ event ∈ signal.events, event.frame.toNat < size

/-- The event lines of the nodes that still run hold what is underway on them, and
nothing comes out of a node that failed. -/
structure Plan.Transits (format : Format) (start : Nat) (alignment : Alignment) (blocks : List (Block ν))
    (plan : Plan ν) : Prop where
  outputs : ∀ {position port : Nat} {station type wait}, plan.layout.stations[position]? = some station →
    station.outputs[port]? = some type → type.Timed → plan.monitor.isFailedAt position = false →
    alignment.values[position]? = some wait →
    Holding format plan.lanes (station.base + port) start (min wait station.delayCapacity)
      (emissions blocks position port)
  lines : ∀ {position : Nat} {station line rest}, plan.layout.stations[position]? = some station →
    line ∈ station.lines → line.type.Timed → plan.monitor.isFailedAt position = false →
    alignment.links[line.link]? = some rest →
    Holding format plan.lanes line.lane start (min rest line.capacity) (relays blocks line.source)
  emits : ∀ position port, format.Admits (emissions blocks position port)
  admitted : ∀ {position port : Nat} {station type}, plan.layout.stations[position]? = some station →
    station.outputs[port]? = some type → type.Timed → format.Admits (relays blocks (station.base + port))
  muted : ∀ {position port : Nat} {station type}, plan.layout.stations[position]? = some station →
    station.outputs[port]? = some type → plan.monitor.isFailedAt position = true →
    ∃ item, plan.lanes[station.base + port]? = some item ∧ item.buffer.events = []

theorem Plan.Transits.adjusted {format : Format} {start : Nat} {alignment : Alignment}
    {blocks : List (Block ν)} {plan after : Plan ν} (transits : plan.Transits format start alignment blocks)
    (changes : plan.Adjusted after) : after.Transits format start alignment blocks := by
  have alive : ∀ position, after.monitor.isFailedAt position = plan.monitor.isFailedAt position := by
    intro position
    rw [Monitor.isFailedAt, Monitor.isFailedAt, changes.failed]
  refine ⟨?_, ?_, transits.emits, ?_, ?_⟩
  · intro position port station type wait found typed timed
    rw [alive, changes.lanes]
    exact transits.outputs (changes.layout ▸ found) typed timed
  · intro position station line rest found among timed
    rw [alive, changes.lanes]
    exact transits.lines (changes.layout ▸ found) among timed
  · intro position port station type found
    exact transits.admitted (changes.layout ▸ found)
  · intro position port station type found typed
    rw [alive, changes.lanes]
    exact transits.muted (changes.layout ▸ found) typed

theorem Plan.Transits.nil {format : Format} {start : Nat} {alignment : Alignment} {plan : Plan ν}
    (ready : plan.Ready format) (lanes : ∀ {lane : Nat} {slot item}, plan.layout.slots[lane]? = some slot →
      plan.lanes[lane]? = some item → item = format.emptyLane slot) :
    plan.Transits format start alignment [] := by
  have found : ∀ {lane : Nat} {slot}, plan.layout.slots[lane]? = some slot →
      plan.lanes[lane]? = some (format.emptyLane slot) := by
    intro lane slot typed
    have inside := (List.getElem?_eq_some_iff.mp typed).1
    rw [← ready.furnished.size] at inside
    have there := Array.getElem?_eq_getElem inside
    rw [there, lanes typed there]
  refine ⟨?_, ?_, fun _ _ => .nil, fun _ _ _ => .nil, ?_⟩
  · intro position port station type wait atPosition typed _ _ _
    have slot := (ready.sound.slotted station (List.mem_of_getElem? atPosition)).outputs typed
    exact ⟨_, found slot, Format.pending_emptyLine _ _⟩
  · intro position station line rest atPosition among _ _ _
    have slot := (ready.sound.slotted station (List.mem_of_getElem? atPosition)).lines line among
    exact ⟨_, found slot, Format.pending_emptyLine _ _⟩
  · intro position port station type atPosition typed _
    have slot := (ready.sound.slotted station (List.mem_of_getElem? atPosition)).outputs typed
    exact ⟨_, found slot, Format.events_silence _⟩

/-! ## One block of a plan -/

variable [Node ν] {patch : Patch ν} {options : CompileOptions} {placed : List (Placed ν)} {survey : Survey}
  {blocks : List (Block ν)} {block : Block ν} {start clock : Nat} {losses : List Nat} {alignment : Alignment}

/-- The block goes on from some blocks of a run, under the delays of an alignment. -/
structure Block.Continues (patch : Patch ν) (options : CompileOptions) (placed : List (Placed ν))
    (survey : Survey) (start : Nat) (alignment : Alignment) (blocks : List (Block ν)) (clock : Nat)
    (losses : List Nat) (block : Block ν) : Prop where
  serves : block.before.Serves patch options placed survey
  made : block.Made options.format clock losses
  positive : 0 < options.format.blockSize
  now : clock = start + blocks.length * options.format.blockSize
  compensation : block.before.monitor.latencies.compensation = alignment.values
  links : block.before.monitor.latencies.links = alignment.links
  inside : EmitsInside options.format.blockSize block
  transits : block.before.Transits options.format start alignment blocks

namespace Block.Continues

variable (continues : block.Continues patch options placed survey start alignment blocks clock losses)
  {position port : Nat} {station : Station} {type : PortType}
include continues

theorem emits (position port : Nat) :
    options.format.Admits (emissions (blocks ++ [block]) position port) := by
  rw [emissions_concat]
  have made := continues.made
  -- What earlier blocks emitted is admitted already.
  suffices newest : (block.emitted position port).length ≤ options.format.eventCapacity ∧
      ∀ event ∈ block.emitted position port, event.frame.toNat < options.format.blockSize from
    (continues.transits.emits position port).concat newest.1 newest.2
  unfold Block.emitted
  cases called : block.callAt? position with
  | none => simp
  | some call =>
    have member : call ∈ block.calls := List.mem_of_find?_eq_some called
    rw [Option.bind_some]
    cases written : call.written[port]? with
    | none => simp
    | some signal =>
      obtain ⟨_, _, station, _, visit⟩ := exists_of_mem_left made.2.visits member
      have within := (Array.getElem?_eq_some_iff.mp written).1
      rw [visit.written.size] at within
      have shapes := visit.written.shapes port _ signal (List.getElem?_eq_getElem within) written
      exact ⟨shapes.length_events_le, continues.inside call member signal (Array.mem_of_getElem? written)⟩

/-- A running node's output goes through its line. -/
theorem delivers_output {call : Call ν} (member : call ∈ block.calls)
    (found : block.before.layout.stations[call.position]? = some station)
    (typed : station.outputs[port]? = some type) (timed : type.Timed) {wait lost : Nat} {signal : SignalBuffer}
    (waits : alignment.values[call.position]? = some wait) (written : call.written[port]? = some signal)
    (takes : Takes clock options.format.blockSize block.before.lanes block.after.lanes (station.base + port)
      signal (min wait station.delayCapacity) lost) :
    Holding options.format block.after.lanes (station.base + port) start (min wait station.delayCapacity)
        (emissions (blocks ++ [block]) call.position port) ∧
      Delivers options.format block.after.lanes (station.base + port) start (min wait station.delayCapacity)
        lost (emissions (blocks ++ [block]) call.position port) blocks.length := by
  have ready := continues.serves.ready
  have slot := (ready.sound.slotted station (List.mem_of_getElem? found)).outputs typed
  have holding := continues.transits.outputs found typed timed (continues.made.alive_of_mem member) waits
  obtain ⟨_, visit⟩ := continues.made.visit member found
  have emits := continues.emits call.position port
  have wrote : block.emitted call.position port = signal.events := by
    simp only [Block.emitted, continues.made.callAt?_eq member, Option.bind_some, written, Option.map_some,
      Option.getD_some]
  rw [emissions_concat, wrote] at emits ⊢
  have length : (emissions blocks call.position port).length = blocks.length := List.length_map ..
  rw [← length]
  exact takes.delivers (fun item held => ready.furnished.holds slot held)
    (visit.written.shapes port type signal typed written) timed (Nat.min_le_right _ _) continues.positive
    (length ▸ continues.now) holding emits

theorem output (found : block.before.layout.stations[position]? = some station)
    (typed : station.outputs[port]? = some type) (timed : type.Timed)
    (alive : block.after.monitor.isFailedAt position = false) :
    ∃ wait lost, alignment.values[position]? = some wait ∧
      Holding options.format block.after.lanes (station.base + port) start (min wait station.delayCapacity)
        (emissions (blocks ++ [block]) position port) ∧
      Delivers options.format block.after.lanes (station.base + port) start (min wait station.delayCapacity)
        lost (emissions (blocks ++ [block]) position port) blocks.length := by
  obtain ⟨before, runs⟩ := continues.made.alive_before alive
  obtain ⟨call, member, rfl⟩ := continues.made.exists_call found before
  obtain ⟨signal, wait, lost, written, _, published, takes⟩ :=
    continues.made.output_takes member found (runs call member rfl) typed
  rw [continues.compensation] at published
  rw [continues.serves.ready.sound.blockSize] at takes
  exact ⟨wait, lost, published, continues.delivers_output member found typed timed published written takes⟩

theorem muted (found : block.before.layout.stations[position]? = some station)
    (typed : station.outputs[port]? = some type)
    (failed : block.after.monitor.isFailedAt position = true) :
    ∃ item, block.after.lanes[station.base + port]? = some item ∧ item.buffer.events = [] := by
  by_cases sooner : block.before.monitor.isFailedAt position = true
  · have inside := (List.getElem?_eq_some_iff.mp typed).1
    rw [continues.made.untouched continues.serves found sooner (by omega) (Nat.add_lt_add_left inside _)]
    exact continues.transits.muted found typed sooner
  · obtain ⟨call, member, rfl⟩ := continues.made.exists_call found (Bool.eq_false_iff.mpr sooner)
    have fails := (continues.made.failedAt_eq member).symm.trans failed
    obtain ⟨item, there, silent⟩ := continues.made.silenced member found fails typed
    exact ⟨item, there, silent ▸ Format.events_silence type⟩

theorem admits (found : block.before.layout.stations[position]? = some station)
    (typed : station.outputs[port]? = some type) (timed : type.Timed) :
    options.format.Admits (relays (blocks ++ [block]) (station.base + port)) := by
  have slot := (continues.serves.ready.sound.slotted station (List.mem_of_getElem? found)).outputs typed
  rw [relays_concat]
  suffices newest : ∃ item, block.after.lanes[station.base + port]? = some item ∧
      ∀ event ∈ item.buffer.events, event.frame.toNat < options.format.blockSize by
    obtain ⟨item, there, inside⟩ := newest
    rw [Block.relayed_eq there]
    exact (continues.transits.admitted found typed timed).concat
      (continues.made.2.furnished.shapes slot there).length_events_le inside
  cases alive : block.after.monitor.isFailedAt position with
  | true =>
    obtain ⟨item, there, silent⟩ := continues.muted found typed alive
    exact ⟨item, there, by simp [silent]⟩
  | false =>
    obtain ⟨_, _, _, _, delivers⟩ := continues.output found typed timed alive
    obtain ⟨item, there, _⟩ := delivers.events
    exact ⟨item, there, delivers.inside there⟩

/-- A line into a called node takes in what its producer's lane carries. -/
theorem delivers_line {call : Call ν} (member : call ∈ block.calls)
    (found : block.before.layout.stations[call.position]? = some station) {line : RouteLine}
    (among : line ∈ station.lines) (timed : line.type.Timed) {rest lost : Nat} {source : Lane}
    (left : alignment.links[line.link]? = some rest) (atSource : block.after.lanes[line.source]? = some source)
    (takes : Takes clock options.format.blockSize block.before.lanes block.after.lanes line.lane source.buffer
      (min rest line.capacity) lost) :
    Holding options.format block.after.lanes line.lane start (min rest line.capacity)
        (relays (blocks ++ [block]) line.source) ∧
      Delivers options.format block.after.lanes line.lane start (min rest line.capacity) lost
        (relays (blocks ++ [block]) line.source) blocks.length := by
  have ready := continues.serves.ready
  have slotted := ready.sound.slotted station (List.mem_of_getElem? found)
  obtain ⟨_, edge, producer, _, _, upstream, _, _, _, _, _, atProducer, typed, lane, _⟩ :=
    continues.serves.stations.line_edge found among
  have admits := continues.admits atProducer typed timed
  have holding := continues.transits.lines found among timed (continues.made.alive_of_mem member) left
  obtain ⟨room, sourceSlot⟩ := slotted.sources line among
  have shapes : options.format.Shapes line.type source.buffer :=
    continues.made.2.furnished.shapes sourceSlot atSource
  rw [← lane, relays_concat, Block.relayed_eq atSource] at admits
  rw [relays_concat, Block.relayed_eq atSource]
  have length : (relays blocks line.source).length = blocks.length := List.length_map ..
  rw [← length]
  exact takes.delivers (fun item held => ready.furnished.holds (slotted.lines line among) held) shapes timed
    (Nat.min_le_right _ _) continues.positive (length ▸ continues.now) holding admits

theorem line (found : block.before.layout.stations[position]? = some station) {line : RouteLine}
    (among : line ∈ station.lines) (timed : line.type.Timed)
    (running : block.before.monitor.isFailedAt position = false) :
    ∃ rest lost, alignment.links[line.link]? = some rest ∧
      Holding options.format block.after.lanes line.lane start (min rest line.capacity)
        (relays (blocks ++ [block]) line.source) ∧
      Delivers options.format block.after.lanes line.lane start (min rest line.capacity) lost
        (relays (blocks ++ [block]) line.source) blocks.length := by
  obtain ⟨call, member, rfl⟩ := continues.made.exists_call found running
  obtain ⟨rest, source, lost, published, atSource, _, takes⟩ :=
    continues.made.line_takes continues.serves.ready member found among
  rw [continues.links] at published
  rw [continues.serves.ready.sound.blockSize] at takes
  exact ⟨rest, lost, published, continues.delivers_line member found among timed published atSource takes⟩

theorem transits_after : block.after.Transits options.format start alignment (blocks ++ [block]) := by
  have layout := continues.made.2.layout
  refine ⟨?_, ?_, continues.emits, ?_, ?_⟩
  · intro position port station type wait found typed timed alive waits
    rw [layout] at found
    obtain ⟨again, _, published, holding, _⟩ := continues.output found typed timed alive
    rw [waits] at published
    cases published
    exact holding
  · intro position station line rest found among timed alive left
    rw [layout] at found
    obtain ⟨again, _, published, holding, _⟩ :=
      continues.line found among timed (continues.made.alive_before alive).1
    rw [left] at published
    cases published
    exact holding
  · intro position port station type found typed timed
    exact continues.admits (layout ▸ found) typed timed
  · intro position port station type found typed failed
    exact continues.muted (layout ▸ found) typed failed

end Block.Continues

end Patchbay
