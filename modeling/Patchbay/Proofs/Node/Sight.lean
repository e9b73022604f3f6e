import Patchbay.Proofs.Node.Uses

/-! What a node can learn of its ports.

A node sees its sources and its outputs, the merged inputs that it asks for, and how
many events were left out of them.
The space in which inputs are merged is shared by all nodes of a plan, and holds
what an earlier merge left there. As long as there is room, no answer depends on it.
-/

set_option autoImplicit false

namespace Patchbay

variable {ν : Type}

/-! ## Questions -/

/-- An action on some ports that goes by what they show and answer, and by nothing
else. -/
inductive Ports.Asks : (Ports → Checked (Outcome × ν × Ports)) → Prop where
  | answer (outcome : Outcome) (next : ν) : Asks fun ports => .ok (outcome, next, ports)
  | fault (fault : Fault) : Asks fun _ => .error fault
  | look {next : List (List Source) → Array SignalBuffer → Ports → Checked (Outcome × ν × Ports)} :
      (∀ sources outputs, Asks (next sources outputs)) →
      Asks fun ports => next ports.inputs.ports ports.outputs ports
  | dropped {next : Nat → Ports → Checked (Outcome × ν × Ports)} : (∀ count, Asks (next count)) →
      Asks fun ports => next ports.inputs.dropped ports
  | write {next : Ports → Checked (Outcome × ν × Ports)} (outputs : Array SignalBuffer) : Asks next →
      Asks fun ports => next { ports with outputs }
  | audio {next : Option (Array Sample) → Ports → Checked (Outcome × ν × Ports)} (port : Nat) :
      (∀ heard, Asks (next heard)) → Asks fun ports => do
        let (heard, inputs) ← ports.inputs.audio port
        next heard { ports with inputs }
  | midi {next : Option (List MidiEvent) → Ports → Checked (Outcome × ν × Ports)} (port : Nat) :
      (∀ heard, Asks (next heard)) → Asks fun ports =>
        next (ports.inputs.midi port).1 { ports with inputs := (ports.inputs.midi port).2 }
  | triggers {next : Option (List Trigger) → Ports → Checked (Outcome × ν × Ports)} (port : Nat) :
      (∀ heard, Asks (next heard)) → Asks fun ports =>
        next (ports.inputs.triggers port).1 { ports with inputs := (ports.inputs.triggers port).2 }

theorem Ports.Asks.map {μ : Type} (wrap : ν → μ) {action : Ports → Checked (Outcome × ν × Ports)}
    (asks : Asks action) : Asks fun ports => do
      let (outcome, next, reply) ← action ports
      return (outcome, wrap next, reply) := by
  induction asks with
  | answer outcome next => exact .answer outcome (wrap next)
  | fault fault => exact .fault fault
  | look _ ih => exact .look ih
  | dropped _ ih => exact .dropped ih
  | write outputs _ ih => exact .write outputs ih
  | audio port _ ih =>
    refine (congrArg Asks (funext fun ports => ?_)).mp (.audio port ih)
    dsimp only
    cases ports.inputs.audio port <;> rfl
  | midi port _ ih => exact .midi port ih
  | triggers port _ ih => exact .triggers port ih

namespace Ports

def bare (ports : Ports) : Ports := ⟨⟨ports.inputs.ports, ⟨#[], .empty 0, .empty 0⟩, 0⟩, ports.outputs⟩

theorem Asks.of_bare {action : Ports → Checked (Outcome × ν × Ports)}
    (same : ∀ ports, action ports = do
      let (outcome, next, reply) ← action ports.bare
      return (outcome, next, { ports with outputs := reply.outputs })) : Asks action := by
  rw [funext same]
  refine @Asks.look _ (fun sources outputs ports => do
    let (outcome, next, reply) ← action ⟨⟨sources, ⟨#[], .empty 0, .empty 0⟩, 0⟩, outputs⟩
    return (outcome, next, { ports with outputs := reply.outputs })) fun sources outputs => ?_
  cases action ⟨⟨sources, ⟨#[], .empty 0, .empty 0⟩, 0⟩, outputs⟩ with
  | error fault => exact .fault fault
  | ok reply => exact .write reply.2.2.outputs (.answer reply.1 reply.2.1)

section

variable (ports : Ports) (port : Nat)

@[simp] theorem bare_audioOut? : ports.bare.audioOut? port = ports.audioOut? port := rfl

@[simp] theorem bare_mixInto (target : Array Sample) :
    ports.bare.inputs.mixInto port target = ports.inputs.mixInto port target := rfl

@[simp] theorem bare_putSamples (block : AudioBuffer) (samples : Array Sample) :
    ports.bare.putSamples port block samples = (ports.putSamples port block samples).bare := rfl

end

end Ports

/-- No action can tell the ports apart, however it goes by what they answer. -/
def Ports.Alike (ν : Type) (ports other : Ports) : Prop :=
  ∀ action : Ports → Checked (Outcome × ν × Ports), Asks action → ∀ {outcome outcome' next next' reply reply'},
    action ports = .ok (outcome, next, reply) → action other = .ok (outcome', next', reply') →
    outcome' = outcome ∧ next' = next ∧ reply'.outputs = reply.outputs

/-! ## Answers -/

/-- In spaces with enough room a merge comes out the same. -/
theorem mergeEvents_agree {Body : Type} {most : Nat} {space other : EventList Body}
    {lists : List (Option (EventList Body))}
    (few : ∀ list, some list ∈ lists → list.events.length ≤ most)
    (room : lists.length * most ≤ space.capacity) (also : lists.length * most ≤ other.capacity) :
    (mergeEvents other lists).1 = (mergeEvents space lists).1 := by
  simp only [mergeEvents, gather_eq few room, gather_eq few also]
  repeat' split
  all_goals rfl

namespace Inputs

variable {most : Nat} {inputs other : Inputs} (same : other.ports = inputs.ports)
include same

theorem sources_eq (port : Nat) : other.sources port = inputs.sources port := by
  rw [sources, sources, same]

theorem audio_agree {port : Nat} {heard heard' : Option (Array Sample)} {after after' : Inputs}
    (answer : inputs.audio port = .ok (heard, after)) (also : other.audio port = .ok (heard', after')) :
    heard' = heard := by
  unfold audio at answer also
  rw [sources_eq same] at also
  dsimp only at answer also
  repeat' split at answer
  all_goals repeat' split at also
  all_goals simp_all

variable (roomy : inputs.Roomy most) (also : other.Roomy most)
include roomy also

theorem midi_agree (port : Nat) : (other.midi port).1 = (inputs.midi port).1 := by
  have few := sources_of_forall (by simp) roomy.fewMidi port
  have room := sources_of_forall (by simp) roomy.midi port
  have wide := sources_of_forall (by simp) also.midi port
  rw [sources_eq same] at wide
  unfold midi
  rw [sources_eq same]
  exact mergeEvents_agree (by simpa using fun list source among found => few source among list found)
    (by simpa using room) (by simpa using wide)

theorem triggers_agree (port : Nat) : (other.triggers port).1 = (inputs.triggers port).1 := by
  have few := sources_of_forall (by simp) roomy.fewTriggers port
  have room := sources_of_forall (by simp) roomy.trigger port
  have wide := sources_of_forall (by simp) also.trigger port
  rw [sources_eq same] at wide
  unfold triggers
  rw [sources_eq same]
  exact mergeEvents_agree (by simpa using fun list source among found => few source among list found)
    (by simpa using room) (by simpa using wide)

end Inputs

structure Ports.ShowsSame (most : Nat) (ports other : Ports) : Prop where
  sources : other.inputs.ports = ports.inputs.ports
  outputs : other.outputs = ports.outputs
  dropped : other.inputs.dropped = ports.inputs.dropped
  here : ports.inputs.Roomy most
  there : other.inputs.Roomy most

theorem Ports.ShowsSame.access {most : Nat} {ports other after after' : Ports} (same : ports.ShowsSame most other)
    (use : Access ports after) (also : Access other after') (outputs : after'.outputs = after.outputs) :
    after.ShowsSame most after' :=
  ⟨also.sources_eq.trans (same.sources.trans use.sources_eq.symm), outputs,
    (also.dropped_eq same.there).trans (same.dropped.trans (use.dropped_eq same.here).symm),
    same.here.alike use.sources_eq use.alike, same.there.alike also.sources_eq also.alike⟩

/-- Ports that show the same answer the same, whatever their merge space holds. -/
theorem Ports.ShowsSame.alike {most : Nat} {ports other : Ports} (same : ports.ShowsSame most other) :
    ports.Alike ν other := by
  intro action asks
  -- What a node asks next depends only on what it was shown, so both sides stay in step.
  induction asks generalizing ports other with
  | answer outcome next =>
    intro _ _ _ _ _ _ answer also
    cases answer
    cases also
    exact ⟨rfl, rfl, same.outputs⟩
  | fault fault =>
    intro _ _ _ _ _ _ answer
    cases answer
  | look _ ih =>
    intro _ _ _ _ _ _ answer also
    dsimp only at answer also
    rw [same.sources, same.outputs] at also
    exact ih _ _ same answer also
  | dropped _ ih =>
    intro _ _ _ _ _ _ answer also
    dsimp only at answer also
    rw [same.dropped] at also
    exact ih _ same answer also
  | write outputs _ ih =>
    intro _ _ _ _ _ _ answer also
    dsimp only at answer also
    have written : ShowsSame most { ports with outputs } { other with outputs } :=
      ⟨same.sources, rfl, same.dropped, same.here, same.there⟩
    exact ih written answer also
  | audio port _ ih =>
    intro _ _ _ _ _ _ answer also
    simp only [bind_eq_ok, Prod.exists] at answer also
    obtain ⟨heard, inputs, asked, answer⟩ := answer
    obtain ⟨heard', inputs', asked', also⟩ := also
    obtain rfl := Inputs.audio_agree same.sources asked asked'
    exact ih _ (same.access (.audioIn asked) (.audioIn asked') same.outputs) answer also
  | midi port _ ih =>
    intro _ _ _ _ _ _ answer also
    dsimp only at answer also
    rw [Inputs.midi_agree same.sources same.here same.there] at also
    exact ih _ (same.access (.midiIn port) (.midiIn port) same.outputs) answer also
  | triggers port _ ih =>
    intro _ _ _ _ _ _ answer also
    dsimp only at answer also
    rw [Inputs.triggers_agree same.sources same.here same.there] at also
    exact ih _ (same.access (.triggersIn port) (.triggersIn port) same.outputs) answer also

theorem Ports.ShowsSame.inStep {most : Nat} {ports other : Ports} (same : ports.ShowsSame most other)
    (spacious : ports.inputs.Spacious) (also : other.inputs.Spacious) {action : Ports → Checked (Outcome × ν × Ports)}
    (asks : Asks action) : InStep (fun reply reply' => reply'.1 = reply.1 ∧ reply'.2.1 = reply.2.1 ∧
      reply.2.2.ShowsSame most reply'.2.2) (action ports) (action other) := by
  -- What is asked for is answered alike on both sides, and leaves both with the room they had.
  induction asks generalizing ports other with
  | answer outcome next => exact .answer ⟨rfl, rfl, same⟩
  | fault fault => exact .fault fault
  | look _ ih =>
    dsimp only
    rw [same.sources, same.outputs]
    exact ih _ _ same spacious also
  | dropped _ ih =>
    dsimp only
    rw [same.dropped]
    exact ih _ same spacious also
  | write outputs _ ih => exact ih ⟨same.sources, rfl, same.dropped, same.here, same.there⟩ spacious also
  | audio port _ ih =>
    obtain ⟨⟨heard, inputs⟩, asked⟩ := spacious.audio_ok port
    obtain ⟨⟨heard', inputs'⟩, asked'⟩ := also.audio_ok port
    obtain rfl := Inputs.audio_agree same.sources asked asked'
    have use : Access ports _ := .audioIn asked
    have use' : Access other _ := .audioIn asked'
    simp only [asked, asked', ok_bind]
    exact ih _ (same.access use use' same.outputs) (spacious.alike use.sources_eq use.alike)
      (also.alike use'.sources_eq use'.alike)
  | midi port _ ih =>
    have use : Access ports _ := .midiIn port
    have use' : Access other _ := .midiIn port
    dsimp only
    rw [Inputs.midi_agree same.sources same.here same.there]
    exact ih _ (same.access use use' same.outputs) (spacious.alike use.sources_eq use.alike)
      (also.alike use'.sources_eq use'.alike)
  | triggers port _ ih =>
    have use : Access ports _ := .triggersIn port
    have use' : Access other _ := .triggersIn port
    dsimp only
    rw [Inputs.triggers_agree same.sources same.here same.there]
    exact ih _ (same.access use use' same.outputs) (spacious.alike use.sources_eq use.alike)
      (also.alike use'.sources_eq use'.alike)

/-! ## Nodes -/

variable [Node ν]

def Node.Asks (ν : Type) [Node ν] : Prop :=
  ∀ (context : Context) (node : ν), Ports.Asks (Node.process context node)

end Patchbay
