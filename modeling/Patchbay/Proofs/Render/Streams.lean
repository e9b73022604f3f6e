import Patchbay.Proofs.Node.Frames
import Patchbay.Proofs.Render.Reads

/-! What delay lines remember over a run.

The line of an output recalls every frame that its node wrote, and the line of an
edge every frame that its producer's lane carried, whatever the delays were, as
long as the nodes keep running.
-/

set_option autoImplicit false

namespace Patchbay

/-! ## One block through a line -/

def Remembers (lanes : Array Lane) (lane channels capacity : Nat) (history : List (Array Sample)) : Prop :=
  ∃ item line, lanes[lane]? = some item ∧ item.delay = .audio line ∧ line.channels = max channels 1 ∧
    line.capacity = capacity ∧ line.Recalls history

/-- What a lane carries after a block is its line's history, `delay` frames late. -/
def Plays (blockSize : Nat) (lanes : Array Lane) (lane channels delay start : Nat)
    (history : List (Array Sample)) : Prop :=
  ∃ item, lanes[lane]? = some item ∧ item.buffer.frames =
    (List.range blockSize).map fun index => audible channels (earlierBy delay history (start + index))

/-- An audio signal goes into a line's history and comes out as late as the delay. -/
theorem Takes.plays {format : Format} {clock blockSize lane channels capacity delay lost : Nat}
    {before after : Array Lane} {signal : SignalBuffer} {history : List (Array Sample)}
    (takes : Takes clock blockSize before after lane signal delay lost)
    (remembers : Remembers before lane channels capacity history)
    (shapes : format.Shapes (.audio channels) signal) (fits : delay ≤ capacity) :
    Remembers after lane channels capacity (history ++ signal.frames) ∧
      Plays format.blockSize after lane channels delay history.length (history ++ signal.frames) := by
  obtain ⟨old, next, found, made, applied⟩ := takes
  obtain ⟨_, line, there, kind, width, reach, recalls⟩ := remembers
  rw [found] at there
  cases there
  cases shapes with
  | @audio _ block wide size =>
    rw [← width] at wide size
    obtain ⟨samples, after, answered, whole, kept, room, recalled, frames⟩ :=
      recalls.process size (reach ▸ fits)
    simp only [kind, PortDelay.apply, answered, ok_bind, pure_eq_ok, Prod.mk.injEq] at applied
    obtain ⟨_, carried, line'⟩ := applied
    simp only [SignalBuffer.frames, wide]
    refine ⟨⟨next, after, made, line'.symm, kept.trans width, room.trans reach, recalled⟩, next, made, ?_⟩
    rw [← carried]
    simp only [SignalBuffer.frames, wide, frames]
    exact List.map_congr_left fun index _ => line.heard_eq width _

/-! ## Streams -/

variable {ν : Type}

def Block.written (block : Block ν) (position port : Nat) : List (Array Sample) :=
  (((block.callAt? position).bind (·.written[port]?)).map SignalBuffer.frames).getD []

def Block.carried (block : Block ν) (lane : Nat) : List (Array Sample) :=
  ((block.after.lanes[lane]?).map (·.buffer.frames)).getD []

variable {format : Format}

def written (blocks : List (Block ν)) (position port : Nat) : List (Array Sample) :=
  blocks.flatMap (·.written position port)

def carried (blocks : List (Block ν)) (lane : Nat) : List (Array Sample) :=
  blocks.flatMap (·.carried lane)

structure Plan.Recalls (format : Format) (blocks : List (Block ν)) (plan : Plan ν) : Prop where
  outputs : ∀ {position port : Nat} {station channels}, plan.layout.stations[position]? = some station →
    station.outputs[port]? = some (.audio channels) → plan.monitor.isFailedAt position = false →
    (written blocks position port).length = blocks.length * format.blockSize ∧
      Remembers plan.lanes (station.base + port) channels station.delayCapacity
        (written blocks position port)
  lines : ∀ {position : Nat} {station line channels}, plan.layout.stations[position]? = some station →
    line ∈ station.lines → line.type = .audio channels → plan.monitor.isFailedAt position = false →
    Remembers plan.lanes line.lane channels line.capacity (carried blocks line.source)

theorem written_concat (blocks : List (Block ν)) (block : Block ν) (position port : Nat) :
    written (blocks ++ [block]) position port = written blocks position port ++ block.written position port := by
  simp [written]

theorem carried_concat (blocks : List (Block ν)) (block : Block ν) (lane : Nat) :
    carried (blocks ++ [block]) lane = carried blocks lane ++ block.carried lane := by
  simp [carried]

theorem Plan.Recalls.adjusted {blocks : List (Block ν)} {plan after : Plan ν}
    (recalls : plan.Recalls format blocks) (changes : plan.Adjusted after) : after.Recalls format blocks := by
  have alive : ∀ position, after.monitor.isFailedAt position = plan.monitor.isFailedAt position := by
    intro position
    rw [Monitor.isFailedAt, Monitor.isFailedAt, changes.failed]
  refine ⟨?_, ?_⟩
  · intro position port station channels found typed
    rw [alive, changes.lanes]
    exact recalls.outputs (changes.layout ▸ found) typed
  · intro position station line channels found among typed
    rw [alive, changes.lanes]
    exact recalls.lines (changes.layout ▸ found) among typed

theorem Plan.Recalls.nil {plan : Plan ν} (ready : plan.Ready format)
    (lines : ∀ {lane : Nat} {slot item}, plan.layout.slots[lane]? = some slot →
      plan.lanes[lane]? = some item → item.delay = format.emptyLine slot.2 slot.1) :
    plan.Recalls format [] := by
  have empty : ∀ {lane channels capacity : Nat}, plan.layout.slots[lane]? = some (.audio channels, capacity) →
      Remembers plan.lanes lane channels capacity [] := by
    intro lane channels capacity slot
    have inside := (List.getElem?_eq_some_iff.mp slot).1
    rw [← ready.furnished.size] at inside
    have found := Array.getElem?_eq_getElem inside
    exact ⟨_, _, found, lines slot found, rfl, rfl, Format.recalls_empty capacity channels⟩
  refine ⟨?_, ?_⟩
  · intro position port station channels found typed _
    have slot := (ready.sound.slotted station (List.mem_of_getElem? found)).outputs typed
    exact ⟨by simp [written], empty slot⟩
  · intro position station line channels found among typed _
    have slot := (ready.sound.slotted station (List.mem_of_getElem? found)).lines line among
    rw [typed] at slot
    exact empty slot

variable [Node ν]

theorem CompiledFrom.recalls_nil {patch : Patch ν} {options : CompileOptions} {placed : List (Placed ν)}
    {survey : Survey} {plan : Plan ν} (compiled : CompiledFrom patch options placed survey plan)
    (serves : plan.Serves patch options placed survey) : plan.Recalls options.format [] := by
  obtain ⟨_, _, _, _, _, assembled⟩ := compiled.assembled
  exact Plan.Recalls.nil serves.ready fun slot found => congrArg Lane.delay (assembled.lane_eq slot found)

/-! ## One block of a plan -/

variable {block : Block ν} {clock : Nat} {losses : List Nat}

namespace Block.Made

theorem length_carried (made : block.Made format clock losses) {lane channels room : Nat}
    (slot : block.before.layout.slots[lane]? = some (.audio channels, room)) :
    (block.carried lane).length = format.blockSize := by
  have inside := (List.getElem?_eq_some_iff.mp slot).1
  rw [← made.2.furnished.size] at inside
  have found := Array.getElem?_eq_getElem inside
  simp only [Block.carried, found, Option.map_some, Option.getD_some]
  exact (made.2.furnished.shapes slot found).length_frames

variable {call : Call ν} {station : Station}

theorem output_plays (made : block.Made format clock losses)
    (member : call ∈ block.calls) (found : block.before.layout.stations[call.position]? = some station)
    (runs : call.fails = false) {port channels : Nat} {history : List (Array Sample)}
    (typed : station.outputs[port]? = some (.audio channels))
    (remembers : Remembers block.before.lanes (station.base + port) channels station.delayCapacity history) :
    ∃ wanted, block.before.monitor.latencies.compensation[call.position]? = some wanted ∧
      (block.written call.position port).length = format.blockSize ∧
      Remembers block.after.lanes (station.base + port) channels station.delayCapacity
        (history ++ block.written call.position port) ∧
      Plays format.blockSize block.after.lanes (station.base + port) channels
        (min wanted station.delayCapacity) history.length (history ++ block.written call.position port) := by
  obtain ⟨signal, wanted, lost, written, shapes, published, takes⟩ := made.output_takes member found runs typed
  have wrote : block.written call.position port = signal.frames := by
    simp only [Block.written, made.callAt?_eq member, Option.bind_some, written, Option.map_some,
      Option.getD_some]
  rw [wrote]
  exact ⟨wanted, published, shapes.length_frames, takes.plays remembers shapes (Nat.min_le_right _ _)⟩

theorem line_plays (ready : block.before.Ready format) (made : block.Made format clock losses)
    (member : call ∈ block.calls) (found : block.before.layout.stations[call.position]? = some station)
    {line : RouteLine} (among : line ∈ station.lines) {channels : Nat} {history : List (Array Sample)}
    (typed : line.type = .audio channels)
    (remembers : Remembers block.before.lanes line.lane channels line.capacity history) :
    ∃ wanted, block.before.monitor.latencies.links[line.link]? = some wanted ∧
      Remembers block.after.lanes line.lane channels line.capacity (history ++ block.carried line.source) ∧
      Plays format.blockSize block.after.lanes line.lane channels (min wanted line.capacity) history.length
        (history ++ block.carried line.source) := by
  obtain ⟨wanted, source, lost, published, atSource, shapes, takes⟩ :=
    made.line_takes ready member found among
  rw [typed] at shapes
  have carried : block.carried line.source = source.buffer.frames := by
    simp only [Block.carried, atSource, Option.map_some, Option.getD_some]
  rw [carried]
  exact ⟨wanted, published, takes.plays remembers shapes (Nat.min_le_right _ _)⟩

end Block.Made

/-! ## Runs -/

theorem Plan.Recalls.rendered {blocks : List (Block ν)} (ready : block.before.Ready format)
    (recalls : block.before.Recalls format blocks) (made : block.Made format clock losses) :
    block.after.Recalls format (blocks ++ [block]) := by
  have layout := made.2.layout
  refine ⟨?_, ?_⟩
  · intro position port station channels found typed alive
    -- What works after the block worked before it, so it has been called.
    obtain ⟨before, runs⟩ := made.alive_before alive
    rw [layout] at found
    obtain ⟨length, remembers⟩ := recalls.outputs found typed before
    obtain ⟨call, member, rfl⟩ := made.exists_call found before
    obtain ⟨_, _, more, remembers, _⟩ :=
      made.output_plays member found (runs call member rfl) typed remembers
    rw [written_concat, List.length_append, length, more, List.length_append, List.length_singleton,
      Nat.succ_mul]
    exact ⟨rfl, remembers⟩
  · intro position station line channels found among typed alive
    obtain ⟨before, _⟩ := made.alive_before alive
    rw [layout] at found
    have remembers := recalls.lines found among typed before
    obtain ⟨call, member, rfl⟩ := made.exists_call found before
    obtain ⟨_, _, remembers, _⟩ := made.line_plays ready member found among typed remembers
    rw [carried_concat]
    exact remembers

variable {patch : Patch ν} {options : CompileOptions} {placed : List (Placed ν)} {survey : Survey}
  {first last : Plan ν} {blocks : List (Block ν)}

/-- A run's lines remember all its blocks. -/
theorem Run.recalls (run : Run Plan.Adjusted first blocks last)
    (serves : first.Serves patch options placed survey) (start : first.Recalls options.format [])
    (orderly : ∀ block ∈ blocks, ∀ call ∈ block.calls, call.Orderly options.format) :
    last.Recalls options.format blocks := by
  induction run with
  | start => exact start
  | @render earlier plan block before changes renders ih =>
    obtain ⟨now, _, clock, losses, made⟩ :=
      Run.made (before.render changes renders) serves orderly block (by simp)
    have recalls := ih fun other member => orderly other (List.mem_append_left [block] member)
    exact (recalls.adjusted changes).rendered now.ready made

theorem Run.length_carried (run : Run Plan.Adjusted first blocks last)
    (serves : first.Serves patch options placed survey)
    (orderly : ∀ block ∈ blocks, ∀ call ∈ block.calls, call.Orderly options.format)
    {lane channels room : Nat} (slot : first.layout.slots[lane]? = some (.audio channels, room)) :
    (carried blocks lane).length = blocks.length * options.format.blockSize := by
  have each : ∀ block ∈ blocks, (block.carried lane).length = options.format.blockSize := by
    intro block member
    obtain ⟨_, layout, clock, losses, made⟩ := run.made serves orderly block member
    exact made.length_carried (layout ▸ slot)
  unfold carried
  rw [List.length_flatMap, List.map_congr_left each, List.map_const', List.sum_replicate_nat]

end Patchbay
