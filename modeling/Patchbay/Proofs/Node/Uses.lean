import Patchbay.Proofs.Node.Access

/-! What a node does to its ports, one operation after another.

An event list offers a few operations, and none of them lets it outgrow its
capacity. A node that does nothing else to its ports can end without an answer
only where an accessor does, and of the accessors only the one that sums audio can.
-/

set_option autoImplicit false

namespace Patchbay

/-! ## Event lists -/

namespace EventList

variable {Body : Type} {list after : EventList Body}

inductive Edit (list : EventList Body) : EventList Body → Prop where
  | push (event : Event Body) : Edit list (list.push event).2
  | append (events : List (Event Body)) : Edit list (list.append events).2
  | clear : Edit list list.clear
  | sort : Edit list list.sort

def Edits : EventList Body → EventList Body → Prop := Relation.ReflTransGen Edit

def Within (list : EventList Body) : Prop := list.events.length ≤ list.capacity

theorem append_within (list : EventList Body) (events : List (Event Body)) (within : list.Within) :
    (list.append events).2.Within := by
  unfold Within at within ⊢
  simp only [append, List.length_append, List.length_take]
  omega

theorem Edit.capacity_eq (edit : list.Edit after) : after.capacity = list.capacity := by
  cases edit with
  | push event =>
    unfold EventList.push
    split <;> rfl
  | append | clear | sort => rfl

theorem Edit.within (edit : list.Edit after) (within : list.Within) : after.Within := by
  cases edit with
  | push event =>
    unfold EventList.push
    split
    · rename_i room
      unfold Within
      rw [List.length_append]
      exact room
    · exact within
  | append events => exact append_within list events within
  | clear => exact Nat.zero_le _
  | sort => exact (sort_same list).perm.length_eq.trans_le within

theorem Edits.within (edits : list.Edits after) (within : list.Within) :
    after.Within ∧ after.capacity = list.capacity := by
  induction edits with
  | refl => exact ⟨within, rfl⟩
  | tail _ edit ih => exact ⟨edit.within ih.1, edit.capacity_eq.trans ih.2⟩

end EventList

def SignalBuffer.Within : SignalBuffer → Prop
  | .midi list => list.Within
  | .trigger list => list.Within
  | _ => True

theorem Format.Shapes.within {format : Format} {type : PortType} {buffer : SignalBuffer}
    (shapes : format.Shapes type buffer) : buffer.Within := by
  cases shapes with
  | audio | control => trivial
  | midi room few | trigger room few => exact few.trans_eq room.symm

/-! ## Ports -/

namespace Ports

inductive Use (ports : Ports) : Ports → Prop where
  | audioIn {port : Nat} {answer : Option (Array Sample)} {inputs : Inputs} :
      ports.inputs.audio port = .ok (answer, inputs) → Use ports { ports with inputs }
  | midiIn (port : Nat) : Use ports { ports with inputs := (ports.inputs.midi port).2 }
  | triggersIn (port : Nat) : Use ports { ports with inputs := (ports.inputs.triggers port).2 }
  | audioOut {port : Nat} {block : AudioBuffer} (samples : Array Sample) :
      ports.audioOut? port = some block → samples.size = block.samples.size →
      Use ports (ports.putSamples port block samples)
  | midiOut {port : Nat} {list after : EventList MidiMessage} : ports.midiOut? port = some list →
      list.Edits after → Use ports (ports.put port (.midi after))
  | triggersOut {port : Nat} {list after : EventList UInt32} : ports.triggerOut? port = some list →
      list.Edits after → Use ports (ports.put port (.trigger after))
  | controlOut (port : Nat) (ramp : Ramp) : Use ports (ports.setControl port ramp).2

def Uses : Ports → Ports → Prop := Relation.ReflTransGen Use

def Within (ports : Ports) : Prop := ∀ buffer ∈ ports.outputs, buffer.Within

variable {ports before after : Ports}

theorem Within.put (within : ports.Within) (port : Nat) {buffer : SignalBuffer} (here : buffer.Within) :
    (ports.put port buffer).Within := by
  intro other member
  rcases Array.mem_or_eq_of_mem_setIfInBounds member with old | rfl
  · exact within other old
  · exact here

theorem Within.midiOut? (within : ports.Within) {port : Nat} {list : EventList MidiMessage}
    (found : ports.midiOut? port = some list) : list.Within := by
  obtain ⟨buffer, there, midi⟩ := Option.bind_eq_some_iff.mp found
  have here := within buffer (Array.mem_of_getElem? there)
  cases buffer <;> cases midi
  exact here

theorem Within.triggerOut? (within : ports.Within) {port : Nat} {list : EventList UInt32}
    (found : ports.triggerOut? port = some list) : list.Within := by
  obtain ⟨buffer, there, trigger⟩ := Option.bind_eq_some_iff.mp found
  have here := within buffer (Array.mem_of_getElem? there)
  cases buffer <;> cases trigger
  exact here

/-- A use is an access that leaves the lists within their capacities. -/
theorem Use.access (use : ports.Use after) (within : ports.Within) : ports.Access after ∧ after.Within := by
  cases use with
  | audioIn answer => exact ⟨.audioIn answer, within⟩
  | midiIn port => exact ⟨.midiIn port, within⟩
  | triggersIn port => exact ⟨.triggersIn port, within⟩
  | audioOut samples found size => exact ⟨.audioOut samples found size, within.put _ trivial⟩
  | @midiOut port list edited found edits =>
    obtain ⟨fits, capacity⟩ := edits.within (within.midiOut? found)
    have access := Access.midiOut edited.events found (capacity ▸ fits)
    rw [← capacity] at access
    exact ⟨access, within.put _ fits⟩
  | @triggersOut port list edited found edits =>
    obtain ⟨fits, capacity⟩ := edits.within (within.triggerOut? found)
    have access := Access.triggersOut edited.events found (capacity ▸ fits)
    rw [← capacity] at access
    exact ⟨access, within.put _ fits⟩
  | controlOut port ramp =>
    refine ⟨.controlOut port ramp, ?_⟩
    unfold setControl
    split
    · exact within.put _ trivial
    · exact within

inductive Write (ports : Ports) : Ports → Prop where
  | samples {port : Nat} {block : AudioBuffer} (samples : Array Sample) : ports.audioOut? port = some block →
      samples.size = block.samples.size → Write ports (ports.putSamples port block samples)

def Writes : Ports → Ports → Prop := Relation.ReflTransGen Write

theorem Writes.accesses (writes : before.Writes after) : before.Accesses after :=
  Relation.ReflTransGen.mono (fun _ _ ⟨samples, found, size⟩ => .audioOut samples found size) _ _ writes

theorem Writes.uses (writes : before.Writes after) : before.Uses after :=
  Relation.ReflTransGen.mono (fun _ _ ⟨samples, found, size⟩ => .audioOut samples found size) _ _ writes

theorem Use.alike (use : before.Use after) : before.inputs.space.Alike after.inputs.space := by
  cases use with
  | audioIn answer => exact (Access.audioIn answer).alike
  | midiIn port => exact (Access.midiIn port).alike
  | triggersIn port => exact (Access.triggersIn port).alike
  | audioOut | midiOut | triggersOut => exact .refl _
  | controlOut port ramp => exact (Access.controlOut port ramp).alike

theorem Uses.alike (uses : before.Uses after) : before.inputs.space.Alike after.inputs.space := by
  induction uses with
  | refl => exact .refl _
  | tail _ use ih => exact ih.trans use.alike

theorem Uses.accesses (uses : before.Uses after) (within : before.Within) :
    before.Accesses after ∧ after.Within := by
  induction uses with
  | refl => exact ⟨.refl, within⟩
  | tail _ use ih =>
    obtain ⟨access, still⟩ := use.access ih.2
    exact ⟨ih.1.tail access, still⟩

end Ports

theorem Format.AllShape.within {format : Format} {types : List PortType} {ports : Ports}
    (all : format.AllShape types ports.outputs) : ports.Within := by
  intro buffer member
  obtain ⟨port, found⟩ := Array.mem_iff_getElem?.mp member
  have inside := (Array.getElem?_eq_some_iff.mp found).1
  rw [all.size] at inside
  exact (all.shapes port _ buffer (List.getElem?_eq_getElem inside) found).within

/-! ## Sums of audio -/

def Inputs.Spacious (inputs : Inputs) : Prop :=
  ∀ sources ∈ inputs.ports, ∀ source ∈ sources, ∀ block, source.buffer.audio? = some block →
    block.samples.size ≤ inputs.space.audio.size

theorem Inputs.Spacious.alike {inputs after : Inputs} (spacious : inputs.Spacious)
    (same : after.ports = inputs.ports) (alike : inputs.space.Alike after.space) : after.Spacious := by
  unfold Spacious
  rw [same, alike.audio]
  exact spacious

theorem Inputs.Spacious.audio_ok {inputs : Inputs} (spacious : inputs.Spacious) (port : Nat) :
    ∃ answer, inputs.audio port = .ok answer := by
  have fits : ∀ source ∈ inputs.sources port, ∀ block, source.buffer.audio? = some block →
      block.samples.size ≤ inputs.space.audio.size := Inputs.sources_of_forall (by simp) spacious port
  unfold Inputs.audio
  dsimp only
  split
  · exact ⟨_, rfl⟩
  · rename_i first rest listed
    split
    · exact ⟨_, rfl⟩
    · rename_i block audio
      have room := fits first (listed ▸ List.mem_cons_self) block audio
      split
      · exact ⟨_, rfl⟩
      · rw [if_neg (by omega)]
        exact ⟨_, rfl⟩

/-! ## Nodes -/

theorem Node.AbidesBy.mono {ν : Type} [Node ν] {allowed wider : Ports → Ports → Prop} {keeps : ν → Prop}
    (abides : Node.AbidesBy allowed keeps) (admits : ∀ ports reply, allowed ports reply → wider ports reply) :
    Node.AbidesBy wider keeps := by
  intro _ _ _ _ _ _ kept answer
  obtain ⟨within, kept⟩ := abides kept answer
  exact ⟨admits _ _ within, kept⟩

/-- Nodes with a property do nothing but use their ports, and keep the property.
They end without an answer only if the sum of some input's audio does. -/
def Node.Acts {ν : Type} [Node ν] (keeps : ν → Prop) : Prop :=
  ∀ (context : Context) (node : ν) (ports : Ports), keeps node →
    (∃ outcome next reply, Node.process context node ports = .ok (outcome, next, reply) ∧
      ports.Uses reply ∧ keeps next) ∨
    ∃ reached port fault, ports.Uses reached ∧ reached.inputs.audio port = .error fault ∧
      Node.process context node ports = .error fault

theorem Node.Acts.abidesBy {ν : Type} [Node ν] {keeps : ν → Prop} (acts : Node.Acts keeps) :
    Node.AbidesBy Ports.Uses keeps := by
  intro context node next ports reply outcome kept answer
  rcases acts context node ports kept with ⟨_, _, _, same, uses, kept⟩ | ⟨_, _, _, _, _, faulted⟩
  · rw [answer] at same
    cases same
    exact ⟨uses, kept⟩
  · rw [answer] at faulted
    cases faulted

/-- Where no sum can fail, every node answers. -/
theorem Node.Acts.answers {ν : Type} [Node ν] {keeps : ν → Prop} (acts : Node.Acts keeps) (context : Context)
    {node : ν} {ports : Ports} (kept : keeps node) (within : ports.Within) (spacious : ports.inputs.Spacious) :
    ∃ outcome next reply, Node.process context node ports = .ok (outcome, next, reply) ∧
      ports.Uses reply ∧ keeps next := by
  rcases acts context node ports kept with answered | ⟨reached, port, fault, uses, faulted, _⟩
  · exact answered
  · obtain ⟨accesses, _⟩ := uses.accesses within
    obtain ⟨answer, sum⟩ :=
      (spacious.alike (Ports.Accesses.sources_eq accesses) (Ports.Accesses.alike accesses)).audio_ok port
    rw [sum] at faulted
    cases faulted

end Patchbay
