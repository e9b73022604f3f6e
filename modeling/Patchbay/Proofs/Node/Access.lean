import Mathlib.Logic.Relation
import Patchbay.Node.Basic
import Patchbay.Proofs.Signal.Shape

/-! Nodes that reach their ports through the accessors only.

An accessor asks for merged inputs, replaces the contents of one output or sets
a control. Whatever a node does with them, its sources stay what they were, its
outputs keep their shapes, and a merge that has room for every event of its
sources leaves none out.
-/

set_option autoImplicit false

namespace Patchbay

namespace Ports

/-- One use of one accessor. Samples are written in place, and an event list takes
no more events than it has places for. -/
inductive Access (ports : Ports) : Ports → Prop where
  | audioIn {port : Nat} {answer : Option (Array Sample)} {inputs : Inputs} :
      ports.inputs.audio port = .ok (answer, inputs) → Access ports { ports with inputs }
  | midiIn (port : Nat) : Access ports { ports with inputs := (ports.inputs.midi port).2 }
  | triggersIn (port : Nat) : Access ports { ports with inputs := (ports.inputs.triggers port).2 }
  | audioOut {port : Nat} {block : AudioBuffer} (samples : Array Sample) :
      ports.audioOut? port = some block → samples.size = block.samples.size →
      Access ports (ports.putSamples port block samples)
  | midiOut {port : Nat} {list : EventList MidiMessage} (events : List MidiEvent) :
      ports.midiOut? port = some list → events.length ≤ list.capacity →
      Access ports (ports.put port (.midi { list with events }))
  | triggersOut {port : Nat} {list : EventList UInt32} (events : List Trigger) :
      ports.triggerOut? port = some list → events.length ≤ list.capacity →
      Access ports (ports.put port (.trigger { list with events }))
  | controlOut (port : Nat) (ramp : Ramp) : Access ports (ports.setControl port ramp).2

def Accesses : Ports → Ports → Prop := Relation.ReflTransGen Access

theorem Access.sources_eq {before after : Ports} (access : Access before after) :
    after.inputs.ports = before.inputs.ports := by
  cases access with
  | audioIn answer =>
    unfold Inputs.audio at answer
    dsimp only at answer
    repeat' split at answer
    all_goals cases answer <;> rfl
  | midiIn | triggersIn | audioOut | midiOut | triggersOut => rfl
  | controlOut port ramp =>
    unfold setControl
    split <;> rfl

theorem Accesses.sources_eq {before after : Ports} (uses : Accesses before after) :
    after.inputs.ports = before.inputs.ports := by
  induction uses with
  | refl => rfl
  | tail _ access ih => exact access.sources_eq.trans ih

end Ports

/-! ## Outputs -/

structure Format.AllShape (format : Format) (types : List PortType) (buffers : Array SignalBuffer) :
    Prop where
  size : buffers.size = types.length
  shapes : ∀ (port : Nat) type buffer, types[port]? = some type → buffers[port]? = some buffer →
    format.Shapes type buffer

namespace Format.AllShape

variable {format : Format} {types : List PortType} {ports : Ports}

theorem put (all : format.AllShape types ports.outputs) {port : Nat} {buffer : SignalBuffer}
    (shapes : ∀ type, types[port]? = some type → format.Shapes type buffer) :
    format.AllShape types (ports.put port buffer).outputs := by
  refine ⟨by simpa [Ports.put] using all.size, ?_⟩
  intro other type signal typed found
  simp only [Ports.put, Array.getElem?_setIfInBounds] at found
  split at found
  · rename_i same
    subst same
    split at found
    · cases found
      exact shapes type typed
    · cases found
  · exact all.shapes other type signal typed found

theorem access {after : Ports} (all : format.AllShape types ports.outputs)
    (use : Ports.Access ports after) : format.AllShape types after.outputs := by
  -- An output is replaced by one of the same length, or by a list that still has room.
  cases use with
  | audioIn | midiIn | triggersIn => exact all
  | @audioOut port block samples found size =>
    refine all.put fun type typed => ?_
    obtain ⟨buffer, there, audio⟩ := Option.bind_eq_some_iff.mp found
    have shapes := all.shapes port type buffer typed there
    cases shapes with
    | audio channels count =>
      cases audio
      exact .audio channels (size.trans count)
    | midi | control | trigger => cases audio
  | @midiOut port list events found fits =>
    refine all.put fun type typed => ?_
    obtain ⟨buffer, there, midi⟩ := Option.bind_eq_some_iff.mp found
    have shapes := all.shapes port type buffer typed there
    cases shapes with
    | midi room _ =>
      cases midi
      exact .midi room (room ▸ fits)
    | audio | control | trigger => cases midi
  | @triggersOut port list events found fits =>
    refine all.put fun type typed => ?_
    obtain ⟨buffer, there, trigger⟩ := Option.bind_eq_some_iff.mp found
    have shapes := all.shapes port type buffer typed there
    cases shapes with
    | trigger room _ =>
      cases trigger
      exact .trigger room (room ▸ fits)
    | audio | midi | control => cases trigger
  | controlOut port ramp =>
    unfold Ports.setControl
    split
    · rename_i found
      refine all.put fun type typed => ?_
      obtain ⟨buffer, there, control⟩ := Option.bind_eq_some_iff.mp found
      have shapes := all.shapes port type buffer typed there
      cases shapes with
      | control => exact .control
      | audio | midi | trigger => cases control
    · exact all

theorem accesses {before after : Ports} (all : format.AllShape types before.outputs)
    (uses : Ports.Accesses before after) : format.AllShape types after.outputs := by
  induction uses with
  | refl => exact all
  | tail _ use ih => exact ih.access use

end Format.AllShape

/-! ## Merges -/

section Merges

variable {Body : Type}

theorem EventList.append_fits {list : EventList Body} {events : List (Event Body)}
    (fits : list.events.length + events.length ≤ list.capacity) :
    list.append events = (0, { list with events := list.events ++ events }) := by
  unfold append
  dsimp only
  rw [List.take_of_length_le (by omega), Nat.sub_self]

def gatherInto : Nat × EventList Body → Option (EventList Body) → Nat × EventList Body
  | (dropped, space), some list => (dropped + (space.append list.events).1, (space.append list.events).2)
  | gathered, none => gathered

theorem gather_eq_foldl (space : EventList Body) (lists : List (Option (EventList Body))) :
    gather space lists = lists.foldl gatherInto (0, space.clear) := by
  unfold gather
  congr 1
  funext gathered list
  cases list <;> rfl

theorem gather_capacity (space : EventList Body) (lists : List (Option (EventList Body))) :
    (gather space lists).2.capacity = space.capacity := by
  suffices every : ∀ gathered : Nat × EventList Body,
      (lists.foldl gatherInto gathered).2.capacity = gathered.2.capacity by
    rw [gather_eq_foldl, every]
    rfl
  induction lists with
  | nil => exact fun _ => rfl
  | cons first rest ih =>
    intro gathered
    rw [List.foldl_cons, ih]
    cases first <;> rfl

/-- With room for all of them, the lists come out one after another. -/
theorem gather_eq {most : Nat} {space : EventList Body} {lists : List (Option (EventList Body))}
    (few : ∀ list, some list ∈ lists → list.events.length ≤ most)
    (room : lists.length * most ≤ space.capacity) :
    gather space lists = (0, ⟨(lists.filterMap id).flatMap (·.events), space.capacity⟩) := by
  -- The induction carries what was gathered so far, for which there must be room too.
  suffices every : ∀ current : EventList Body,
      current.events.length + lists.length * most ≤ current.capacity →
      lists.foldl gatherInto (0, current) =
        (0, ⟨current.events ++ (lists.filterMap id).flatMap (·.events), current.capacity⟩) by
    rw [gather_eq_foldl]
    exact every space.clear (by simpa [EventList.clear] using room)
  clear room
  induction lists with
  | nil =>
    intro current _
    rw [List.filterMap_nil, List.flatMap_nil, List.append_nil]
    rfl
  | cons first rest ih =>
    intro current room
    have later := ih fun list member => few list (List.mem_cons_of_mem first member)
    rw [List.length_cons, Nat.succ_mul] at room
    rw [List.foldl_cons]
    cases first with
    | none => exact later current (by omega)
    | some list =>
      have small := few list List.mem_cons_self
      have gathered := later { current with events := current.events ++ list.events } (by
        dsimp only
        rw [List.length_append]
        omega)
      rw [gatherInto, EventList.append_fits (by omega), Nat.add_zero]
      simpa only [List.filterMap_cons, id, List.flatMap_cons, List.append_assoc] using gathered

theorem mergeEvents_capacity (space : EventList Body) (lists : List (Option (EventList Body))) :
    (mergeEvents space lists).2.2.capacity = space.capacity := by
  have gathered := gather_capacity space lists
  unfold mergeEvents
  generalize gather space lists = result at gathered ⊢
  obtain ⟨dropped, merged⟩ := result
  dsimp only at gathered ⊢
  repeat' split
  all_goals first | rfl | exact gathered

theorem mergeEvents_dropped (most : Nat) (space : EventList Body)
    (lists : List (Option (EventList Body)))
    (few : ∀ list, some list ∈ lists → list.events.length ≤ most)
    (room : lists.length * most ≤ space.capacity) : (mergeEvents space lists).2.1 = 0 := by
  simp only [mergeEvents, gather_eq few room]
  repeat' split
  all_goals rfl

/-- With room for all of them, a merge answers the events of all lists in order, ties in
the order of the lists, however many lists there are. -/
theorem mergeEvents_eq {most : Nat} {space : EventList Body} {lists : List (EventList Body)}
    (few : ∀ list ∈ lists, list.events.length ≤ most) (room : lists.length * most ≤ space.capacity) :
    (mergeEvents space (lists.map some)).1 =
      if lists = [] then none else some (Event.sortByFrame (lists.flatMap (·.events))) := by
  have gathered : gather space (lists.map some) = (0, ⟨lists.flatMap (·.events), space.capacity⟩) := by
    rw [gather_eq (by simpa using few) (by simpa using room)]
    simp [List.filterMap_map]
  cases lists with
  | nil => rfl
  | cons list rest =>
    cases rest with
    | nil =>
      rw [List.map_singleton] at gathered ⊢
      by_cases ordered : list.isSorted = true
      · -- A list in order is passed on as it is, which is how sorting leaves it.
        simp [mergeEvents, ordered, (list.isSorted_iff.mp ordered).sortByFrame_eq]
      · simp [mergeEvents, ordered, gathered, EventList.sort]
    | cons second others =>
      rw [List.map_cons, List.map_cons] at gathered ⊢
      simp [mergeEvents, gathered, EventList.sort]

theorem gather_length_le {most : Nat} (space : EventList Body) {lists : List (Option (EventList Body))}
    (few : ∀ list, some list ∈ lists → list.events.length ≤ most) :
    (gather space lists).2.events.length ≤ lists.length * most := by
  -- As before, the induction starts from what was gathered so far.
  suffices every : ∀ gathered : Nat × EventList Body, (lists.foldl gatherInto gathered).2.events.length ≤
      gathered.2.events.length + lists.length * most by
    rw [gather_eq_foldl]
    exact (every _).trans_eq (Nat.zero_add _)
  induction lists with
  | nil => exact fun _ => Nat.le_add_right _ _
  | cons first rest ih =>
    intro gathered
    have later := ih (fun list member => few list (List.mem_cons_of_mem first member)) (gatherInto gathered first)
    rw [List.foldl_cons, List.length_cons, Nat.succ_mul]
    cases first with
    | none =>
      change _ ≤ gathered.2.events.length + _ at later
      omega
    | some list =>
      have small := few list List.mem_cons_self
      have taken : (gatherInto gathered (some list)).2.events.length ≤
          gathered.2.events.length + list.events.length := by
        simp only [gatherInto, EventList.append, List.length_append, List.length_take]
        omega
      omega

theorem mergeEvents_length_le {most : Nat} (space : EventList Body) {lists : List (Option (EventList Body))}
    (few : ∀ list, some list ∈ lists → list.events.length ≤ most) :
    (∀ events, (mergeEvents space lists).1 = some events → events.length ≤ lists.length * most) ∧
      ((mergeEvents space lists).2.2 = space ∨
        (mergeEvents space lists).2.2.events.length ≤ lists.length * most) := by
  have gathered := gather_length_le space few
  rw [← (EventList.sort_same _).perm.length_eq] at gathered
  have merged : ∀ events, some (gather space lists).2.sort.events = some events →
      events.length ≤ lists.length * most := fun _ same => Option.some.inj same ▸ gathered
  unfold mergeEvents
  dsimp only
  split
  · exact ⟨nofun, .inl rfl⟩
  · exact ⟨nofun, .inl rfl⟩
  · rename_i list
    split
    · refine ⟨fun events same => ?_, .inl rfl⟩
      rw [← Option.some.inj same, List.length_singleton, Nat.one_mul]
      exact few list List.mem_cons_self
    · exact ⟨merged, .inr gathered⟩
  · exact ⟨merged, .inr gathered⟩

end Merges

theorem size_mixSources (sources : List Source) (target : Array Sample) :
    (mixSources sources target).size = target.size := by
  unfold mixSources
  induction sources generalizing target with
  | nil => rfl
  | cons source rest ih =>
    rw [List.foldl_cons, ih]
    cases source.buffer.audio? with
    | none => rfl
    | some block => simp [addScaled]

structure MergeSpace.Alike (space other : MergeSpace) : Prop where
  audio : other.audio.size = space.audio.size
  midi : other.midi.capacity = space.midi.capacity
  trigger : other.trigger.capacity = space.trigger.capacity

theorem MergeSpace.Alike.refl (space : MergeSpace) : space.Alike space := ⟨rfl, rfl, rfl⟩

theorem MergeSpace.Alike.trans {first second third : MergeSpace} (here : first.Alike second)
    (there : second.Alike third) : first.Alike third :=
  ⟨there.audio.trans here.audio, there.midi.trans here.midi, there.trigger.trans here.trigger⟩

/-- Sources with at most `most` events each, and merge space for all of any port. -/
structure Inputs.Roomy (most : Nat) (inputs : Inputs) : Prop where
  midi : ∀ sources ∈ inputs.ports, sources.length * most ≤ inputs.space.midi.capacity
  trigger : ∀ sources ∈ inputs.ports, sources.length * most ≤ inputs.space.trigger.capacity
  fewMidi : ∀ sources ∈ inputs.ports, ∀ source ∈ sources, ∀ list,
    source.buffer.midi? = some list → list.events.length ≤ most
  fewTriggers : ∀ sources ∈ inputs.ports, ∀ source ∈ sources, ∀ list,
    source.buffer.trigger? = some list → list.events.length ≤ most

theorem Inputs.Roomy.alike {most : Nat} {inputs after : Inputs} (roomy : inputs.Roomy most)
    (same : after.ports = inputs.ports) (alike : inputs.space.Alike after.space) : after.Roomy most := by
  refine ⟨?_, ?_, ?_, ?_⟩ <;> rw [same]
  · exact alike.midi ▸ roomy.midi
  · exact alike.trigger ▸ roomy.trigger
  · exact roomy.fewMidi
  · exact roomy.fewTriggers

theorem Inputs.sources_of_forall {inputs : Inputs} {P : List Source → Prop} (none : P [])
    (each : ∀ sources ∈ inputs.ports, P sources) (port : Nat) : P (inputs.sources port) := by
  unfold sources
  cases found : inputs.ports[port]? with
  | none => exact none
  | some sources => exact each sources (List.mem_of_getElem? found)

theorem Inputs.dropped_midi (inputs : Inputs) (port : Nat) :
    (inputs.midi port).2.dropped = inputs.dropped +
      (mergeEvents inputs.space.midi ((inputs.sources port).map (·.buffer.midi?))).2.1 := rfl

theorem Inputs.dropped_triggers (inputs : Inputs) (port : Nat) :
    (inputs.triggers port).2.dropped = inputs.dropped +
      (mergeEvents inputs.space.trigger ((inputs.sources port).map (·.buffer.trigger?))).2.1 := rfl

namespace Ports

theorem Access.alike {before after : Ports} (use : Access before after) :
    before.inputs.space.Alike after.inputs.space := by
  cases use with
  | audioIn asked =>
    unfold Inputs.audio at asked
    dsimp only at asked
    repeat' split at asked
    all_goals cases asked
    case isFalse.isFalse.refl fits =>
      refine ⟨?_, rfl, rfl⟩
      simp only [Array.size_append, size_mixSources, Array.size_replicate, Array.size_extract]
      omega
    all_goals exact .refl _
  | midiIn port => exact ⟨rfl, mergeEvents_capacity _ _, rfl⟩
  | triggersIn port => exact ⟨rfl, rfl, mergeEvents_capacity _ _⟩
  | audioOut | midiOut | triggersOut => exact .refl _
  | controlOut port ramp =>
    unfold setControl
    split <;> exact .refl _

theorem Accesses.alike {before after : Ports} (uses : Accesses before after) :
    before.inputs.space.Alike after.inputs.space := by
  induction uses with
  | refl => exact .refl _
  | tail _ use ih => exact ih.trans use.alike

theorem Access.dropped_eq {most : Nat} {before after : Ports} (use : Access before after)
    (roomy : before.inputs.Roomy most) : after.inputs.dropped = before.inputs.dropped := by
  cases use with
  | audioIn asked =>
    unfold Inputs.audio at asked
    dsimp only at asked
    repeat' split at asked
    all_goals cases asked <;> rfl
  | midiIn port =>
    -- Only a merge can drop events, and there is room for all that these sources hold.
    have few := Inputs.sources_of_forall (by simp) roomy.fewMidi port
    have room := Inputs.sources_of_forall (by simp) roomy.midi port
    have nothing := mergeEvents_dropped most before.inputs.space.midi
      ((before.inputs.sources port).map (·.buffer.midi?))
      (by simpa using fun list source among found => few source among list found)
      (by simpa using room)
    rw [Inputs.dropped_midi, nothing, Nat.add_zero]
  | triggersIn port =>
    have few := Inputs.sources_of_forall (by simp) roomy.fewTriggers port
    have room := Inputs.sources_of_forall (by simp) roomy.trigger port
    have nothing := mergeEvents_dropped most before.inputs.space.trigger
      ((before.inputs.sources port).map (·.buffer.trigger?))
      (by simpa using fun list source among found => few source among list found)
      (by simpa using room)
    rw [Inputs.dropped_triggers, nothing, Nat.add_zero]
  | audioOut | midiOut | triggersOut => rfl
  | controlOut port ramp =>
    unfold setControl
    split <;> rfl

theorem Accesses.dropped_eq {most : Nat} {before after : Ports} (uses : Accesses before after)
    (roomy : before.inputs.Roomy most) : after.inputs.dropped = before.inputs.dropped := by
  induction uses with
  | refl => rfl
  | @tail middle _ uses use ih =>
    rw [use.dropped_eq (roomy.alike (Accesses.sources_eq uses) (Accesses.alike uses)), ih]

end Ports

def Node.AbidesBy {ν : Type} [Node ν] (allowed : Ports → Ports → Prop) (keeps : ν → Prop) : Prop :=
  ∀ {context : Context} {node next : ν} {ports reply : Ports} {outcome : Outcome}, keeps node →
    Node.process context node ports = .ok (outcome, next, reply) → allowed ports reply ∧ keeps next

/-- Nodes with a property use nothing but the accessors of their ports, and keep
the property. -/
def Node.Abides {ν : Type} [Node ν] (keeps : ν → Prop) : Prop :=
  ∀ {context : Context} {node next : ν} {ports reply : Ports} {outcome : Outcome}, keeps node →
    Node.process context node ports = .ok (outcome, next, reply) → ports.Accesses reply ∧ keeps next

theorem Node.Abides.accesses {ν : Type} [Node ν] {keeps : ν → Prop} (abides : Node.Abides keeps) :
    Node.AbidesBy Ports.Accesses keeps := abides

end Patchbay
