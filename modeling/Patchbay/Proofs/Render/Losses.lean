import Patchbay.Proofs.Render.Delivery

/-! What a block loses.

There is room in a merge for every event of its sources. All that a block can lose
is what comes out of a line together with more events than a list takes.
-/

set_option autoImplicit false

namespace Patchbay

variable {ν : Type}

/-! ## Merges -/

theorem Layout.le_largest {counts : List Nat} {count : Nat} (member : count ∈ counts) : count ≤ counts.foldl max 0 := by
  have largest := List.le_max_of_mem member
  rw [List.foldl_max_eq_max (List.ne_nil_of_mem member)]
  omega

theorem Layout.length_feeds_le {layout : Layout} {station : Station} (member : station ∈ layout.stations) :
    station.feeds.length ≤ layout.maxNodeRoutes := le_largest (List.mem_map.mpr ⟨station, member, rfl⟩)

theorem Layout.length_inputs_le {layout : Layout} {station : Station} (member : station ∈ layout.stations) :
    station.inputs.length ≤ layout.maxNodeInputs := le_largest (List.mem_map.mpr ⟨station, member, rfl⟩)

theorem Layout.length_row_le {layout : Layout} {station : Station} (member : station ∈ layout.stations)
    {row : List Feed} (inRow : row ∈ station.inputs) : row.length ≤ layout.maxNodeRoutes :=
  (List.sublist_flatten_of_mem inRow).length_le.trans (length_feeds_le member)

theorem Format.Shapes.few {format : Format} {type : PortType} {buffer : SignalBuffer}
    (shapes : format.Shapes type buffer) :
    (∀ list, buffer.midi? = some list → list.events.length ≤ format.eventCapacity) ∧
      ∀ list, buffer.trigger? = some list → list.events.length ≤ format.eventCapacity := by
  cases shapes with
  | audio | control => exact ⟨nofun, nofun⟩
  | midi _ few =>
    refine ⟨fun list found => ?_, nofun⟩
    cases found
    exact few
  | trigger _ few =>
    refine ⟨nofun, fun list found => ?_⟩
    cases found
    exact few

theorem MergeSpace.Wide.roomy {format : Format} {layout : Layout} {inputs : Inputs} (wide : inputs.space.Wide layout)
    (capacity : layout.eventCapacity = format.eventCapacity) {station : Station} (member : station ∈ layout.stations)
    {slots : List (PortType × Nat)} {lanes : Array Lane} (furnished : format.Furnished slots lanes)
    (shown : List.Forall₂ (List.Forall₂ (Feed.Shows lanes)) station.inputs inputs.ports) :
    inputs.Roomy format.eventCapacity := by
  have room : ∀ sources ∈ inputs.ports, sources.length * format.eventCapacity ≤
      layout.eventCapacity * max layout.maxNodeRoutes 1 := by
    intro sources among
    obtain ⟨row, inRow, shown⟩ := exists_of_mem_right shown among
    have length := Layout.length_row_le member inRow
    rw [← shown.length_eq, capacity, Nat.mul_comm]
    exact Nat.mul_le_mul_left _ (length.trans (Nat.le_max_left _ _))
  have shapes : ∀ sources ∈ inputs.ports, ∀ source ∈ sources, ∃ type, format.Shapes type source.buffer := by
    intro sources among source cell
    obtain ⟨row, _, shown⟩ := exists_of_mem_right shown among
    obtain ⟨feed, _, lane, atLane, rfl⟩ := exists_of_mem_right shown cell
    have inside := (Array.getElem?_eq_some_iff.mp atLane).1
    rw [furnished.size] at inside
    exact ⟨_, furnished.shapes (List.getElem?_eq_getElem inside) atLane⟩
  refine ⟨fun sources among => (room sources among).trans wide.midi,
    fun sources among => (room sources among).trans wide.trigger, ?_, ?_⟩
  · intro sources among source cell
    obtain ⟨_, shapes⟩ := shapes sources among source cell
    exact shapes.few.1
  · intro sources among source cell
    obtain ⟨_, shapes⟩ := shapes sources among source cell
    exact shapes.few.2

namespace Block.Made

variable [Node ν] {format : Format} {block : Block ν} {clock : Nat} {losses : List Nat} {call : Call ν}

theorem roomy (made : block.Made format clock losses) (ready : block.before.Ready format)
    (member : call ∈ block.calls) : call.ports.inputs.Roomy format.eventCapacity := by
  obtain ⟨_, _, station, found, visit⟩ := exists_of_mem_left made.2.visits member
  exact (made.2.wide call member).roomy ready.sound.eventCapacity (List.mem_of_getElem? found) made.2.furnished
    visit.shown

/-- A merge loses nothing. -/
theorem dropped_eq_zero (made : block.Made format clock losses) (ready : block.before.Ready format)
    (member : call ∈ block.calls) (typed : call.Typed) : call.reply.inputs.dropped = 0 := by
  obtain ⟨_, _, _, _, visit⟩ := exists_of_mem_left made.2.visits member
  rw [Ports.Accesses.dropped_eq typed (made.roomy ready member), visit.fresh]

end Block.Made

/-! ## Lines -/

variable [Node ν] {patch : Patch ν} {options : CompileOptions} {placed : List (Placed ν)} {survey : Survey}
  {blocks : List (Block ν)} {block : Block ν} {start clock : Nat} {losses : List Nat} {alignment : Alignment}

/-- No line of a called node has more events come out in the block than a list takes. -/
structure Block.Fits (format : Format) (start : Nat) (alignment : Alignment) (blocks : List (Block ν))
    (block : Block ν) : Prop where
  outputs : ∀ {position port : Nat} {station type wait}, block.before.layout.stations[position]? = some station →
    station.outputs[port]? = some type → type.Timed → block.after.monitor.isFailedAt position = false →
    alignment.values[position]? = some wait →
    (arriving start format.blockSize (min wait station.delayCapacity)
      (emissions (blocks ++ [block]) position port) blocks.length).length ≤ format.eventCapacity
  lines : ∀ {position : Nat} {station line rest}, block.before.layout.stations[position]? = some station →
    line ∈ station.lines → line.type.Timed → block.before.monitor.isFailedAt position = false →
    alignment.links[line.link]? = some rest →
    (arriving start format.blockSize (min rest line.capacity)
      (relays (blocks ++ [block]) line.source) blocks.length).length ≤ format.eventCapacity

def Block.OutputFits (format : Format) (start : Nat) (blocks : List (Block ν)) (block : Block ν)
    (position port delay : Nat) : Prop :=
  (arriving start format.blockSize delay (emissions (blocks ++ [block]) position port) blocks.length).length ≤
    format.eventCapacity

def Block.LineFits (format : Format) (start : Nat) (blocks : List (Block ν)) (block : Block ν)
    (lane delay : Nat) : Prop :=
  (arriving start format.blockSize delay (relays (blocks ++ [block]) lane) blocks.length).length ≤
    format.eventCapacity

namespace Block.Continues

variable (continues : block.Continues patch options placed survey start alignment blocks clock losses)
  {station : Station} {call : Call ν}
include continues

theorem waits_eq_zero_iff (member : call ∈ block.calls)
    (found : block.before.layout.stations[call.position]? = some station) {waits : List Nat}
    (emits : station.Emits block.before.monitor.latencies.compensation clock block.before.layout.blockSize
      block.before.lanes block.after.lanes call waits) :
    waits.sum = 0 ↔ (call.fails = false → ∀ (port : Nat) type wait, station.outputs[port]? = some type →
      type.Timed → alignment.values[call.position]? = some wait →
      block.OutputFits options.format start blocks call.position port (min wait station.delayCapacity)) := by
  have ready := continues.serves.ready
  have slotted := ready.sound.slotted station (List.mem_of_getElem? found)
  obtain ⟨_, visit⟩ := continues.made.visit member found
  cases emits with
  | failed fails => simp [fails]
  | @delayed wanted _ runs published takes =>
    rw [continues.compensation] at published
    rw [ready.sound.blockSize] at takes
    -- Lanes are written one after the other; the lane number tells the port.
    rw [sum_eq_zero_iff_of_forall₂ (P := fun item => ∀ port type, item.2 = station.base + port →
      station.outputs[port]? = some type → type.Timed →
      block.OutputFits options.format start blocks call.position port (min wanted station.delayCapacity)) takes ?_]
    · constructor
      · intro all _ port type wait typed timed waits
        rw [published] at waits
        cases waits
        have inside := (List.getElem?_eq_some_iff.mp typed).1
        rw [← visit.written.size] at inside
        exact all (call.written[port], station.base + port)
          (mem_zipIdx_toList.mpr ⟨port, Array.getElem?_eq_getElem inside, rfl⟩) port type rfl typed timed
      · intro all item _ port type _ typed timed
        exact all runs port type wanted typed timed published
    · rintro ⟨signal, lane⟩ lost among takes
      obtain ⟨port, written, rfl⟩ := mem_zipIdx_toList.mp among
      have inside := (Array.getElem?_eq_some_iff.mp written).1
      rw [visit.written.size] at inside
      have typed := List.getElem?_eq_getElem inside
      by_cases timed : station.outputs[port].Timed
      · obtain ⟨_, delivers⟩ := continues.delivers_output member found typed timed published written takes
        rw [delivers.lost, Nat.sub_eq_zero_iff_le]
        constructor
        · intro few other type same _ _
          obtain rfl : other = port := by omega
          exact few
        · intro few
          exact few port _ rfl typed timed
      -- Audio waits in a ring, which loses nothing.
      · obtain ⟨old, _, held, _, applied⟩ := takes
        have nothing := (ready.furnished.holds (slotted.outputs typed) held).lost_eq_zero
          (visit.written.shapes port _ signal typed written) timed applied
        refine iff_of_true nothing fun other type same again also => ?_
        obtain rfl : other = port := by omega
        rw [typed] at again
        cases again
        exact absurd also timed

theorem fills_eq_zero_iff (member : call ∈ block.calls)
    (found : block.before.layout.stations[call.position]? = some station) {fills : List Nat}
    (filled : List.Forall₂ (RouteLine.Filled block.before.monitor.latencies.links clock
      block.before.layout.blockSize block.before.lanes block.after.lanes) station.lines fills) :
    fills.sum = 0 ↔ ∀ line ∈ station.lines, ∀ rest, line.type.Timed →
      alignment.links[line.link]? = some rest →
      block.LineFits options.format start blocks line.source (min rest line.capacity) := by
  have ready := continues.serves.ready
  have slotted := ready.sound.slotted station (List.mem_of_getElem? found)
  rw [ready.sound.blockSize, continues.links] at filled
  refine sum_eq_zero_iff_of_forall₂ filled ?_
  rintro line lost among ⟨wanted, source, published, atSource, takes⟩
  -- Only lines of events can lose any.
  by_cases timed : line.type.Timed
  · obtain ⟨_, delivers⟩ := continues.delivers_line member found among timed published atSource takes
    rw [delivers.lost, Nat.sub_eq_zero_iff_le]
    constructor
    · intro few rest _ left
      rw [published] at left
      cases left
      exact few
    · exact fun few => few wanted timed published
  · obtain ⟨room, sourceSlot⟩ := slotted.sources line among
    have shapes : options.format.Shapes line.type source.buffer :=
      continues.made.2.furnished.shapes sourceSlot atSource
    obtain ⟨old, _, held, _, applied⟩ := takes
    have nothing := (ready.furnished.holds (slotted.lines line among) held).lost_eq_zero shapes timed applied
    exact iff_of_true nothing fun _ also => absurd also timed

/-- A block of typed calls loses nothing exactly if its lines fit. -/
theorem lossless_iff (typed : ∀ call ∈ block.calls, call.Typed) :
    losses.sum = 0 ↔ block.Fits options.format start alignment blocks := by
  have made := continues.made
  -- Nothing is lost if no call loses anything, on its lines, in its merges or at its outputs.
  rw [sum_eq_zero_iff_of_forall₂ (P := fun call => ∀ station,
    block.before.layout.stations[call.position]? = some station →
      (call.fails = false → ∀ (port : Nat) type wait, station.outputs[port]? = some type →
        type.Timed → alignment.values[call.position]? = some wait →
        block.OutputFits options.format start blocks call.position port (min wait station.delayCapacity)) ∧
      ∀ line ∈ station.lines, ∀ rest, line.type.Timed → alignment.links[line.link]? = some rest →
        block.LineFits options.format start blocks line.source (min rest line.capacity)) made.2.visits ?_]
  · constructor
    · intro all
      refine ⟨?_, ?_⟩
      · intro position port station type wait found output timed alive waits
        obtain ⟨running, runs⟩ := made.alive_before alive
        obtain ⟨call, member, rfl⟩ := made.exists_call found running
        exact (all call member station found).1 (runs call member rfl) port type wait output timed waits
      · intro position station line rest found among timed running left
        obtain ⟨call, member, rfl⟩ := made.exists_call found running
        exact (all call member station found).2 line among rest timed left
    · intro fits call member station found
      refine ⟨fun runs port type wait output timed waits => ?_, fun line among rest timed left => ?_⟩
      · exact fits.outputs found output timed (made.alive_after member runs) waits
      · exact fits.lines found among timed (made.alive_of_mem member) left
  · rintro call lost member ⟨station, found, visit⟩
    obtain ⟨fills, waits, filled, emits, rfl⟩ := visit.traffic
    rw [made.dropped_eq_zero continues.serves.ready member (typed call member), Nat.add_zero,
      Nat.add_eq_zero_iff, continues.waits_eq_zero_iff member found emits,
      continues.fills_eq_zero_iff member found filled, and_comm]
    constructor
    · intro all again there
      rw [found] at there
      cases there
      exact all
    · exact fun all => all station found

end Block.Continues

end Patchbay
