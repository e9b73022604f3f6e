import Patchbay.Proofs.Render.Losses
import Patchbay.Proofs.Render.Refinement
import Patchbay.Proofs.Render.Unfailing

/-! Nothing outgrows what was reserved for it.

The rooms of a renderer and of a plan are maxima over all nodes, ports and edges.
They bound what any one node is shown and whatever it asks of its inputs and
writes to its outputs, and they bound every list and every line of the plan.
-/

set_option autoImplicit false

namespace Patchbay

variable {ν : Type} {format : Format} {layout : Layout}

/-! ## Lists and queues -/

def SignalBuffer.Reserved (places : Nat) : SignalBuffer → Prop
  | .midi list => list.capacity = places ∧ list.events.length ≤ places
  | .trigger list => list.capacity = places ∧ list.events.length ≤ places
  | _ => True

structure EventQueue.Reserved {Body : Type} (places : Nat) (queue : EventQueue Body) : Prop where
  capacity : queue.capacity = places
  within : queue.pending.length ≤ places
  taking : ∀ {delay clock dropped : Nat} {events : List (Event Body)} {next : EventQueue Body},
    queue.takeAll delay clock events = .ok (dropped, next) → next.pending.length ≤ places

def PortDelay.Reserved (places : Nat) : PortDelay → Prop
  | .midi queue => queue.Reserved places
  | .trigger queue => queue.Reserved places
  | _ => True

structure Lane.Reserved (format : Format) (room : Nat) (lane : Lane) : Prop where
  list : lane.buffer.Reserved format.eventCapacity
  queue : lane.delay.Reserved (format.places room)

structure Plan.Reserved (format : Format) (slots : List (PortType × Nat)) (plan : Plan ν) : Prop where
  size : plan.lanes.size = slots.length
  lanes : ∀ {index : Nat} {slot : PortType × Nat} {lane : Lane}, slots[index]? = some slot →
    plan.lanes[index]? = some lane → lane.Reserved format slot.2

theorem Format.Shapes.reserved {type : PortType} {buffer : SignalBuffer} (shapes : format.Shapes type buffer) :
    buffer.Reserved format.eventCapacity := by
  cases shapes with
  | audio | control => trivial
  | midi room few | trigger room few => exact ⟨room, few⟩

theorem EventList.Edits.reserved {Body : Type} {places : Nat} {list after : EventList Body} (edits : list.Edits after)
    (reserved : list.capacity = places ∧ list.events.length ≤ places) :
    after.capacity = places ∧ after.events.length ≤ places := by
  obtain ⟨rfl, few⟩ := reserved
  obtain ⟨within, size⟩ := edits.within few
  exact ⟨size, within.trans_eq size⟩

theorem EventQueue.Within.reserved {Body : Type} {queue : EventQueue Body} (within : queue.Within) :
    queue.Reserved queue.capacity := by
  refine ⟨rfl, within, fun answer => ?_⟩
  obtain ⟨size, still⟩ := takeAll_within answer
  exact Nat.le_trans (still within) (Nat.le_of_eq size)

theorem Format.Holds.reserved {type : PortType} {room : Nat} {line : PortDelay} (holds : format.Holds room type line) :
    line.Reserved (format.places room) := by
  cases holds with
  | audio | control => trivial
  | midi size within | trigger size within => exact size ▸ within.reserved

theorem Format.Furnished.reserved {slots : List (PortType × Nat)} {plan : Plan ν}
    (furnished : format.Furnished slots plan.lanes) : plan.Reserved format slots :=
  ⟨furnished.size, fun slot found =>
    ⟨(furnished.shapes slot found).reserved, (furnished.holds slot found).reserved⟩⟩

/-! ## Ports -/

structure Ports.Reserved (layout : Layout) (ports : Ports) : Prop where
  sources : ports.inputs.ports.flatten.length ≤ layout.maxNodeRoutes
  inputs : ports.inputs.ports.length ≤ layout.maxNodeInputs
  lists : ∀ sources ∈ ports.inputs.ports, ∀ source ∈ sources, source.buffer.Reserved layout.eventCapacity
  samples : ∀ sources ∈ ports.inputs.ports, ∀ source ∈ sources, ∀ block, source.buffer.audio? = some block →
    block.samples.size ≤ layout.maxInputSamples
  space : ports.inputs.space.Wide layout
  outputs : ∀ buffer ∈ ports.outputs, buffer.Reserved layout.eventCapacity

namespace Ports

variable {ports reached : Ports}

theorem Reserved.within (reserved : ports.Reserved layout) : ports.Within := by
  intro buffer member
  have here := reserved.outputs buffer member
  cases buffer with
  | audio | control => trivial
  | midi list | trigger list => exact here.2.trans_eq here.1.symm

theorem Reserved.put (reserved : ports.Reserved layout) (port : Nat) (buffer : SignalBuffer)
    (here : buffer.Reserved layout.eventCapacity) : (ports.put port buffer).Reserved layout := by
  refine { reserved with outputs := fun other member => ?_ }
  rcases Array.mem_or_eq_of_mem_setIfInBounds member with old | rfl
  · exact reserved.outputs other old
  · exact here

theorem Use.reserved (use : ports.Use reached) (reserved : ports.Reserved layout) : reached.Reserved layout := by
  have same := (use.access reserved.within).1.sources_eq
  -- Only a use that writes an output needs a look at the outputs.
  have outputs : ∀ buffer ∈ reached.outputs, buffer.Reserved layout.eventCapacity := by
    cases use with
    | audioIn | midiIn | triggersIn => exact reserved.outputs
    | @audioOut port block samples => exact (reserved.put port (.audio { block with samples }) trivial).outputs
    | @midiOut port list after found edits =>
      obtain ⟨buffer, there, midi⟩ := Option.bind_eq_some_iff.mp found
      have here := reserved.outputs buffer (Array.mem_of_getElem? there)
      cases buffer <;> cases midi
      exact (reserved.put port (.midi after) (edits.reserved here)).outputs
    | @triggersOut port list after found edits =>
      obtain ⟨buffer, there, trigger⟩ := Option.bind_eq_some_iff.mp found
      have here := reserved.outputs buffer (Array.mem_of_getElem? there)
      cases buffer <;> cases trigger
      exact (reserved.put port (.trigger after) (edits.reserved here)).outputs
    | controlOut port ramp =>
      unfold setControl
      split
      · exact (reserved.put port (.control ramp) trivial).outputs
      · exact reserved.outputs
  exact ⟨same ▸ reserved.sources, same ▸ reserved.inputs, same ▸ reserved.lists, same ▸ reserved.samples,
    reserved.space.alike use.alike, outputs⟩

theorem Uses.reserved (uses : ports.Uses reached) (reserved : ports.Reserved layout) : reached.Reserved layout := by
  induction uses with
  | refl => exact reserved
  | tail _ use ih => exact use.reserved ih

end Ports

/-! ## Merges -/

/-- A merge answers at most `most` events, and leaves no more in its space. -/
structure Merges {Body : Type} (most : Nat) (answer : Option (List (Event Body))) (space after : EventList Body) :
    Prop where
  answer : ∀ events, answer = some events → events.length ≤ most
  after : after = space ∨ after.events.length ≤ most

/-- What a port is asked for finds room: sums of audio are no larger than the largest
input, merged lists no longer than the lists of as many edges as lead into any node. -/
structure Inputs.Fits (layout : Layout) (inputs : Inputs) (port : Nat) : Prop where
  audio : ∃ answer after, inputs.audio port = .ok (answer, after) ∧
    ∀ samples, answer = some samples → samples.size ≤ layout.maxInputSamples
  midi : Merges (layout.eventCapacity * max layout.maxNodeRoutes 1) (inputs.midi port).1 inputs.space.midi
    (inputs.midi port).2.space.midi
  triggers : Merges (layout.eventCapacity * max layout.maxNodeRoutes 1) (inputs.triggers port).1 inputs.space.trigger
    (inputs.triggers port).2.space.trigger

theorem Inputs.audio_size {inputs after : Inputs} {port : Nat} {samples : Array Sample}
    (asked : inputs.audio port = .ok (some samples, after)) :
    ∃ source ∈ inputs.sources port, ∃ block, source.buffer.audio? = some block ∧
      samples.size = block.samples.size := by
  unfold Inputs.audio at asked
  dsimp only at asked
  split at asked
  · cases asked
  · rename_i first rest listed
    rw [listed]
    split at asked
    · cases asked
    · rename_i block audio
      refine ⟨first, List.mem_cons_self, block, audio, ?_⟩
      split at asked
      · cases asked
        rfl
      split at asked
      · cases asked
      · cases asked
        rw [size_mixSources, Array.size_replicate]

namespace Ports.Reserved

variable {ports : Ports} (reserved : ports.Reserved layout)
include reserved

theorem spacious : ports.inputs.Spacious := fun sources among source member block audio =>
  (reserved.samples sources among source member block audio).trans reserved.space.audio

theorem merges {Body : Type} (space : EventList Body) (port : Nat) (list? : SignalBuffer → Option (EventList Body))
    (few : ∀ {buffer : SignalBuffer} {list}, buffer.Reserved layout.eventCapacity → list? buffer = some list →
      list.events.length ≤ layout.eventCapacity) :
    Merges (layout.eventCapacity * max layout.maxNodeRoutes 1)
      (mergeEvents space ((ports.inputs.sources port).map (list? ·.buffer))).1 space
      (mergeEvents space ((ports.inputs.sources port).map (list? ·.buffer))).2.2 := by
  have each : ∀ source ∈ ports.inputs.sources port, source.buffer.Reserved layout.eventCapacity :=
    Inputs.sources_of_forall (by simp) reserved.lists port
  have count : (ports.inputs.sources port).length ≤ layout.maxNodeRoutes :=
    Inputs.sources_of_forall (P := fun sources => sources.length ≤ layout.maxNodeRoutes) (Nat.zero_le _)
      (fun sources among => (List.sublist_flatten_of_mem among).length_le.trans reserved.sources) port
  have short : ∀ list, some list ∈ (ports.inputs.sources port).map (list? ·.buffer) →
      list.events.length ≤ layout.eventCapacity := by
    intro list member
    obtain ⟨source, among, found⟩ := List.mem_map.mp member
    exact few (each source among) found
  obtain ⟨answer, after⟩ := mergeEvents_length_le space short
  rw [List.length_map, Nat.mul_comm] at answer after
  have most : layout.eventCapacity * (ports.inputs.sources port).length ≤
      layout.eventCapacity * max layout.maxNodeRoutes 1 :=
    Nat.mul_le_mul_left _ (count.trans (Nat.le_max_left _ _))
  exact ⟨fun events same => (answer events same).trans most, after.imp_right (·.trans most)⟩

theorem fits (port : Nat) : ports.inputs.Fits layout port := by
  refine ⟨?_, reserved.merges _ port (·.midi?) ?_, reserved.merges _ port (·.trigger?) ?_⟩
  · obtain ⟨⟨answer, after⟩, asked⟩ := reserved.spacious.audio_ok port
    refine ⟨answer, after, asked, ?_⟩
    rintro samples rfl
    obtain ⟨source, among, block, audio, size⟩ := Inputs.audio_size asked
    rw [size]
    exact Inputs.sources_of_forall (P := fun sources => ∀ source ∈ sources, ∀ block,
      source.buffer.audio? = some block → block.samples.size ≤ layout.maxInputSamples) (by simp) reserved.samples
      port source among block audio
  · intro buffer list reserved found
    cases buffer <;> cases found
    exact reserved.2
  · intro buffer list reserved found
    cases buffer <;> cases found
    exact reserved.2

end Ports.Reserved

/-! ## Runs -/

section

variable [Node ν] {patch : Patch ν} {options : CompileOptions} {plan last : Plan ν} {block : Block ν}
  {blocks : List (Block ν)} {clock : Nat} {losses : List Nat} {call : Call ν}

theorem Block.Made.reserved {bound links : Nat} (made : block.Made format clock losses)
    (ready : block.before.Ready format)
    (provided : ∀ station ∈ block.before.layout.stations, station.Provided format block.before.layout.slots bound links
      block.before.layout.maxInputSamples) (member : call ∈ block.calls) :
    call.ports.Reserved block.before.layout := by
  obtain ⟨_, _, station, found, visit⟩ := exists_of_mem_left made.2.visits member
  have among := List.mem_of_getElem? found
  have shown := (provided station among).shown made.2.furnished visit.shown
  have sound := ready.sound
  have all : format.AllShape station.outputs call.ports.outputs := by
    rw [visit.blank]
    exact format.allShape_silence station.outputs
  refine ⟨?_, ?_, ?_, ?_, made.2.wide call member, ?_⟩
  · rw [← (List.rel_flatten visit.shown).length_eq]
    exact Layout.length_feeds_le among
  · rw [← visit.shown.length_eq]
    exact Layout.length_inputs_le among
  · intro sources row source cell
    obtain ⟨_, shapes, _⟩ := shown sources row source cell
    exact sound.eventCapacity ▸ shapes.reserved
  · intro sources row source cell
    obtain ⟨_, _, small⟩ := shown sources row source cell
    exact small
  · intro buffer written
    obtain ⟨port, found⟩ := Array.mem_iff_getElem?.mp written
    have inside := (Array.getElem?_eq_some_iff.mp found).1
    rw [all.size] at inside
    exact sound.eventCapacity ▸ (all.shapes port _ buffer (List.getElem?_eq_getElem inside) found).reserved

end

end Patchbay
