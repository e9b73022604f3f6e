import Patchbay.Proofs.Node.Builtin
import Patchbay.Proofs.Node.Frames

/-! The library's nodes, frame by frame.

Every node of the library goes through a block one frame after another, and what it
gives for a frame depends on the frames before and on nothing else. So it makes no
difference to a node where blocks are cut.
-/

set_option autoImplicit false

namespace Patchbay

/-! ## Delay lines -/

namespace AudioDelayLine

def tick (delay : Nat) (line : AudioDelayLine) (frame : Array Sample) : Array Sample × AudioDelayLine :=
  if line.capacity = 0 then (frame, line)
  else (line.heard (line.ring.step delay frame).1, { line with ring := (line.ring.step delay frame).2 })

variable {line next : AudioDelayLine} {delay : Nat}

theorem tick_idle (idle : line.capacity = 0) (frame : Array Sample) : line.tick delay frame = (frame, line) := if_pos idle

theorem tick_channels (line : AudioDelayLine) (delay : Nat) (frame : Array Sample) :
    (line.tick delay frame).2.channels = line.channels := by
  unfold tick
  split <;> rfl

theorem stepAll_tick (room : line.capacity ≠ 0) (frames : List (Array Sample)) :
    stepAll (tick delay) line frames =
      ((line.ring.run delay frames).1.map line.heard, { line with ring := (line.ring.run delay frames).2 }) := by
  rw [Ring.run_eq_stepAll]
  induction frames generalizing line with
  | nil => rfl
  | cons frame rest ih =>
    have here : line.tick delay frame =
        (line.heard (line.ring.step delay frame).1, { line with ring := (line.ring.step delay frame).2 }) :=
      if_neg room
    -- A step leaves the ring its capacity, so the rest goes through a line of some length.
    have later : stepAll (tick delay) { line with ring := (line.ring.step delay frame).2 } rest = _ := ih room
    rw [stepAll_cons, here, stepAll_cons]
    dsimp only
    rw [later]
    rfl

theorem process_ticks {block samples : Array Sample} {count : Nat} (positive : 0 < line.channels) (whole : line.Whole)
    (size : block.size = count * line.channels) (answer : line.process block delay = .ok (samples, next)) :
    framesOf line.channels samples = (stepAll (tick delay) line (framesOf line.channels block)).1 ∧
      next = (stepAll (tick delay) line (framesOf line.channels block)).2 := by
  unfold process at answer
  split at answer
  · rename_i idle
    cases answer
    rw [stepAll_fixed (tick_idle idle), List.map_id']
    exact ⟨rfl, rfl⟩
  split at answer
  · cases answer
  · rename_i room _
    rw [splitFrames_eq positive size] at answer
    cases answer
    rw [stepAll_tick room]
    refine ⟨framesOf_joinFrames positive ?_, rfl⟩
    obtain ⟨_, sound, _⟩ := @Ring.run_forall _ _ _ delay whole (framesOf line.channels block)
      fun frame member => size_of_mem_framesOf positive size member
    intro frame member
    obtain ⟨out, among, rfl⟩ := List.mem_map.mp member
    exact heard_size fun frame same => sound frame (same ▸ among)

end AudioDelayLine

/-! ## Nodes -/

namespace Builtin

def channels : Builtin → Nat
  | .constant node => node.channels
  | .gain node => node.channels
  | .impulse node => node.channels
  | .delay node => node.channels
  | .strip node => node.channels

theorem inputs_audio {node : Builtin} {spec : PortSpec} (member : spec ∈ Node.inputs node) :
    spec.type = .audio node.channels := by
  cases node with
  | constant | impulse => cases member
  | _ =>
    cases List.mem_singleton.mp member
    rfl

theorem outputs_audio {node : Builtin} {spec : PortSpec} (member : spec ∈ Node.outputs node) :
    spec.type = .audio node.channels := by
  cases node with
  | strip node =>
    rcases List.mem_pair.mp member with rfl | rfl
    · rfl
    · rfl
  | _ =>
    cases List.mem_singleton.mp member
    rfl

def tick (connected : Bool) : Builtin → Array Sample → List (Array Sample) × Builtin
  | .constant node, _ => ([Array.replicate (max node.channels 1) node.value], .constant node)
  | .gain node, input => ([input.map (node.gain * ·)], .gain node)
  | .impulse node, _ =>
      ([Array.replicate (max node.channels 1) (if node.fired then 0 else 1)], .impulse { node with fired := true })
  | .delay node, input =>
      ([(node.line.tick node.setting input).1], .delay { node with line := (node.line.tick node.setting input).2 })
  | .strip node, input =>
      if node.mute || !connected then (List.replicate 2 (Array.replicate (max node.channels 1) 0), .strip node)
      else ([node.fade (max node.channels 1) input, input], .strip node)

def Wide : Builtin → Prop
  | .delay node => node.line.channels = max node.channels 1
  | _ => True

/-- A node as it is made: a delay's line has the delay's channels and holds whole
frames, as many as any setting needs. -/
structure Proper (node : Builtin) : Prop where
  wide : node.Wide
  fits : node.Fits

structure Alike (node next : Builtin) : Prop where
  channels : next.channels = node.channels
  inputs : Node.inputs next = Node.inputs node
  outputs : Node.outputs next = Node.outputs node
  latency : Node.latency next = Node.latency node
  wide : node.Wide → next.Wide

theorem Alike.trans {node next last : Builtin} (first : node.Alike next) (second : next.Alike last) :
    node.Alike last where
  channels := second.channels.trans first.channels
  inputs := second.inputs.trans first.inputs
  outputs := second.outputs.trans first.outputs
  latency := second.latency.trans first.latency
  wide := second.wide ∘ first.wide

theorem tick_alike (connected : Bool) (node : Builtin) (input : Array Sample) :
    node.Alike (node.tick connected input).2 := by
  cases node with
  | delay node => exact ⟨rfl, rfl, rfl, rfl, (AudioDelayLine.tick_channels ..).trans⟩
  | strip node =>
    rw [tick]
    split <;> exact ⟨rfl, rfl, rfl, rfl, id⟩
  | _ => exact ⟨rfl, rfl, rfl, rfl, id⟩

theorem stepAll_alike (connected : Bool) (node : Builtin) (inputs : List (Array Sample)) :
    node.Alike (stepAll (tick connected) node inputs).2 :=
  stepAll_invariant (fun next input alike => alike.trans (next.tick_alike connected input))
    ⟨rfl, rfl, rfl, rfl, id⟩ inputs

/-- A block went through a node one frame after another. -/
structure Played (connected : Bool) (inputs : List (Array Sample)) (node : Builtin) (outcome : Outcome)
    (next : Builtin) (reply : Ports) : Prop where
  done : outcome = .done
  next : next = (stepAll (tick connected) node inputs).2
  outputs : ∀ port < (Node.outputs node).length, (reply.outputs[port]?).map (·.frames) =
    some ((stepAll (tick connected) node inputs).1.map (·.getD port #[]))

end Builtin

section

variable {format : Format} {context : Context} {ports reply : Ports} {outcome : Outcome}

theorem Ports.frames_put {port : Nat} (inside : port < ports.outputs.size) (buffer : SignalBuffer) :
    ((ports.put port buffer).outputs[port]?).map (·.frames) = some buffer.frames := by
  rw [Ports.put, Array.getElem?_setIfInBounds_self_of_lt inside, Option.map_some]

theorem Ports.getElem?_put_ne {port other : Nat} (apart : other ≠ port) (buffer : SignalBuffer) :
    (ports.put other buffer).outputs[port]? = ports.outputs[port]? := by
  rw [Ports.put, Array.getElem?_setIfInBounds_ne apart]

theorem Builtin.Played.of_single {connected : Bool} {inputs : List (Array Sample)} {node next : Builtin}
    (answers : List (Array Sample)) (single : (Node.outputs node).length = 1)
    (plays : stepAll (tick connected) node inputs = (answers.map ([·]), next))
    (carried : (reply.outputs[0]?).map (·.frames) = some answers) :
    Builtin.Played connected inputs node .done next reply := by
  refine ⟨rfl, by rw [plays], ?_⟩
  intro port inside
  obtain rfl : port = 0 := by omega
  rw [carried, plays, List.map_map]
  simp [Function.comp_def]

theorem Builtin.Played.of_pair {connected : Bool} {inputs : List (Array Sample)} {node : Builtin}
    (post pre : Array Sample → Array Sample) (pair : (Node.outputs node).length = 2)
    (fixed : ∀ input, node.tick connected input = ([post input, pre input], node))
    (first : (reply.outputs[0]?).map (·.frames) = some (inputs.map post))
    (second : (reply.outputs[1]?).map (·.frames) = some (inputs.map pre)) :
    Builtin.Played connected inputs node .done node reply := by
  have plays := stepAll_fixed fixed inputs
  refine ⟨rfl, by rw [plays], ?_⟩
  intro port inside
  rw [plays, List.map_map]
  obtain rfl | rfl : port = 0 ∨ port = 1 := by omega
  · exact first
  · exact second

theorem Ports.audioOut?_blank {types : List PortType} (blank : ports.outputs = (types.map format.silence).toArray)
    {port channels : Nat} (typed : types[port]? = some (.audio channels)) : port < ports.outputs.size ∧
      ports.audioOut? port = some ⟨Array.replicate (format.blockSize * max channels 1) 0, max channels 1⟩ := by
  have inside := (List.getElem?_eq_some_iff.mp typed).1
  refine ⟨by simpa [blank] using inside, ?_⟩
  simp only [Ports.audioOut?, blank, List.getElem?_toArray, List.getElem?_map, typed]
  rfl

theorem Ports.frames_blank {types : List PortType} (blank : ports.outputs = (types.map format.silence).toArray)
    {port channels : Nat} (typed : types[port]? = some (.audio channels)) :
    (ports.outputs[port]?).map (·.frames) =
      some (List.replicate format.blockSize (Array.replicate (max channels 1) 0)) := by
  rw [blank, List.getElem?_toArray, List.getElem?_map, typed]
  exact congrArg some (framesOf_replicate (Nat.le_max_right ..) ..)

theorem Inputs.size_mixInto (inputs : Inputs) (port size : Nat) :
    (inputs.mixInto port (Array.replicate size 0)).2.size = size :=
  (size_mixSources _ _).trans Array.size_replicate

variable {connected : Bool} {inputs : List (Array Sample)} {next : Builtin}

theorem Constant.played {node : Constant} (length : inputs.length = format.blockSize)
    (blank : ports.outputs = (([.audio node.channels] : List PortType).map format.silence).toArray)
    (answer : Node.process context (Builtin.constant node) ports = .ok (outcome, next, reply)) :
    Builtin.Played connected inputs (.constant node) outcome next reply := by
  obtain ⟨inside, found⟩ := Ports.audioOut?_blank blank (List.getElem?_cons_zero ..)
  simp only [Node.process, found, ok_bind, pure_eq_ok, Prod.mk.injEq] at answer
  obtain ⟨rfl, rfl, rfl⟩ := answer
  refine .of_single (inputs.map fun _ => Array.replicate (max node.channels 1) node.value) rfl ?_ ?_
  · rw [stepAll_fixed fun _ => rfl, List.map_map]
    rfl
  · rw [Ports.frames_put inside, List.map_const', length]
    simp only [SignalBuffer.frames, AudioBuffer.fill, Array.size_replicate]
    rw [framesOf_replicate (Nat.le_max_right ..)]

theorem Gain.played {node : Gain}
    (shapes : ∀ source ∈ ports.inputs.sources 0, format.Shapes (.audio node.channels) source.buffer)
    (blank : ports.outputs = (([.audio node.channels] : List PortType).map format.silence).toArray)
    (answer : Node.process context (Builtin.gain node) ports = .ok (outcome, next, reply)) :
    Builtin.Played connected (ports.inputs.mixed format.blockSize 0 node.channels) (.gain node) outcome next
      reply := by
  obtain ⟨inside, found⟩ := Ports.audioOut?_blank blank (List.getElem?_cons_zero ..)
  simp only [Node.process, found, ok_bind, pure_eq_ok, Prod.mk.injEq] at answer
  obtain ⟨rfl, rfl, rfl⟩ := answer
  refine .of_single ((ports.inputs.mixed format.blockSize 0 node.channels).map (·.map (node.gain * ·))) rfl ?_ ?_
  · rw [stepAll_fixed fun _ => rfl, List.map_map]
    rfl
  · rw [Ports.putSamples, Ports.frames_put inside, ← Inputs.framesOf_mixInto shapes]
    exact congrArg some (framesOf_map (Nat.le_max_right ..) (ports.inputs.size_mixInto 0 _) _)

theorem Impulse.played {node : Impulse} (positive : 0 < format.blockSize) (length : inputs.length = format.blockSize)
    (blank : ports.outputs = (([.audio node.channels] : List PortType).map format.silence).toArray)
    (answer : Node.process context (Builtin.impulse node) ports = .ok (outcome, next, reply)) :
    Builtin.Played connected inputs (.impulse node) outcome next reply := by
  obtain ⟨inside, found⟩ := Ports.audioOut?_blank blank (List.getElem?_cons_zero ..)
  have idle : ∀ inputs : List (Array Sample),
      stepAll (Builtin.tick connected) (.impulse ⟨node.channels, true⟩) inputs =
        (inputs.map fun _ => [Array.replicate (max node.channels 1) 0], .impulse ⟨node.channels, true⟩) :=
    stepAll_fixed fun _ => rfl
  obtain ⟨channels, fired⟩ := node
  -- An impulse that has fired is silent; one that has not fires on the first frame and is silent behind it.
  cases fired with
  | true =>
    simp only [Node.process, if_true, ok_bind, pure_eq_ok, Prod.mk.injEq] at answer
    obtain ⟨rfl, rfl, rfl⟩ := answer
    refine .of_single (inputs.map fun _ => Array.replicate (max channels 1) 0) rfl ?_ ?_
    · rw [idle, List.map_map]
      rfl
    · rw [List.map_const', length]
      exact Ports.frames_blank blank rfl
  | false =>
    simp only [Node.process, Bool.false_eq_true, if_false, found, ok_bind, pure_eq_ok, Prod.mk.injEq] at answer
    obtain ⟨rfl, rfl, rfl⟩ := answer
    obtain ⟨count, size⟩ : ∃ count, format.blockSize = count + 1 := ⟨format.blockSize - 1, by omega⟩
    obtain ⟨first, rest, rfl⟩ := List.exists_cons_of_length_pos (length ▸ positive)
    have later : rest.length = count := by
      rw [List.length_cons] at length
      omega
    refine .of_single (Array.replicate (max channels 1) 1 :: rest.map fun _ => Array.replicate (max channels 1) 0)
      rfl ?_ ?_
    · rw [stepAll_cons]
      dsimp only [Builtin.tick]
      rw [idle, List.map_cons, List.map_map]
      rfl
    · have whole : max channels 1 ≤ format.blockSize * max channels 1 := Nat.le_mul_of_pos_left _ positive
      rw [Ports.putSamples, Ports.frames_put inside, setFirst, if_pos (by rwa [Array.size_replicate])]
      simp only [SignalBuffer.frames, Array.extract_replicate, Array.size_replicate, Nat.min_self]
      rw [show format.blockSize * max channels 1 - max channels 1 = count * max channels 1 by
        rw [size, Nat.succ_mul, Nat.add_sub_cancel], framesOf_append (by omega) Array.size_replicate
        Array.size_replicate, framesOf_replicate (by omega), List.map_const', later]

theorem Delay.played {node : Delay} (proper : (Builtin.delay node).Proper)
    (shapes : ∀ source ∈ ports.inputs.sources 0, format.Shapes (.audio node.channels) source.buffer)
    (blank : ports.outputs = (([.audio node.channels] : List PortType).map format.silence).toArray)
    (answer : Node.process context (Builtin.delay node) ports = .ok (outcome, next, reply)) :
    Builtin.Played connected (ports.inputs.mixed format.blockSize 0 node.channels) (.delay node) outcome next
      reply := by
  obtain ⟨inside, found⟩ := Ports.audioOut?_blank blank (List.getElem?_cons_zero ..)
  obtain ⟨width, whole, _⟩ := proper
  simp only [Node.process, found, bind_eq_ok, pure_eq_ok, Prod.exists, Prod.mk.injEq] at answer
  obtain ⟨_, _, _, ⟨samples, line, delayed, rfl, rfl, rfl⟩, rfl, rfl, rfl⟩ := answer
  obtain ⟨frames, rfl⟩ := AudioDelayLine.process_ticks (width ▸ by omega) whole
    ((ports.inputs.size_mixInto 0 _).trans (by rw [width])) delayed
  rw [width, Inputs.framesOf_mixInto shapes] at frames ⊢
  have plays := @stepAll_map _ _ _ (AudioDelayLine.tick node.setting) _ _ (Builtin.tick connected)
    (fun line => .delay { node with line }) ([·]) (fun _ _ => rfl) node.line
  refine .of_single _ rfl (plays _) ?_
  rw [Ports.putSamples, Ports.frames_put inside, ← frames]
  rfl

structure Taps where
  post : Array Sample
  pre : Array Sample

def Taps.tap (taps : Taps) (preFader : Bool) : Array Sample := if preFader then taps.pre else taps.post

def Taps.buffers (taps : Taps) (channels : Nat) : Array SignalBuffer :=
  #[.audio ⟨taps.post, max channels 1⟩, .audio ⟨taps.pre, max channels 1⟩]

def ChannelStrip.taps (strip : ChannelStrip) (frames : Nat) (inputs : Inputs) : Taps :=
  let silence := Array.replicate (frames * max strip.channels 1) 0
  if strip.mute || !inputs.isConnected 0 then ⟨silence, silence⟩
  else
    let sum := mixSources (inputs.sources 0) silence
    ⟨strip.fade (max strip.channels 1) sum, sum⟩

theorem ChannelStrip.process_eq {strip next : ChannelStrip}
    (blank : ports.outputs = (((Node.outputs strip).map (·.type)).map format.silence).toArray)
    (answer : Node.process context strip ports = .ok (outcome, next, reply)) :
    outcome = .done ∧ next = strip ∧
      reply.outputs = (strip.taps format.blockSize ports.inputs).buffers strip.channels := by
  obtain ⟨inside, foundPost⟩ := @Ports.audioOut?_blank _ _ _ blank 0 strip.channels rfl
  obtain ⟨_, foundPre⟩ := @Ports.audioOut?_blank _ _ _ blank 1 strip.channels rfl
  have shape : ports.outputs = (⟨Array.replicate (format.blockSize * max strip.channels 1) 0,
      Array.replicate (format.blockSize * max strip.channels 1) 0⟩ : Taps).buffers strip.channels := blank
  unfold taps
  by_cases idle : (strip.mute || !ports.inputs.isConnected 0) = true
  · simp only [Node.process, if_pos idle, Except.ok.injEq, Prod.mk.injEq] at answer
    obtain ⟨rfl, rfl, rfl⟩ := answer
    rw [if_pos idle]
    exact ⟨rfl, rfl, shape⟩
  · -- The output before the fader is written first, and the other one is still silent then.
    have later : ∀ block samples, (ports.putSamples 1 block samples).audioOut? 0 = ports.audioOut? 0 :=
      fun block samples => congrArg (· >>= SignalBuffer.audio?) (Ports.getElem?_put_ne (by omega) _)
    simp only [Node.process, if_neg idle, ChannelStrip.pre, ChannelStrip.post, foundPre, later, foundPost,
      Except.ok.injEq, Prod.mk.injEq] at answer
    obtain ⟨rfl, rfl, rfl⟩ := answer
    rw [if_neg idle]
    refine ⟨rfl, rfl, ?_⟩
    simp [Ports.putSamples, Ports.put, shape, Taps.buffers, Inputs.mixInto]

theorem ChannelStrip.played {node : ChannelStrip}
    (shapes : ∀ source ∈ ports.inputs.sources 0, format.Shapes (.audio node.channels) source.buffer)
    (blank : ports.outputs =
      (([.audio node.channels, .audio node.channels] : List PortType).map format.silence).toArray)
    (answer : Node.process context (Builtin.strip node) ports = .ok (outcome, next, reply)) :
    Builtin.Played (ports.inputs.isConnected 0) (ports.inputs.mixed format.blockSize 0 node.channels) (.strip node)
      outcome next reply := by
  have positive := Nat.le_max_right node.channels 1
  obtain ⟨⟨_, _, _⟩, answered, wrapped⟩ := bind_eq_ok.mp answer
  cases wrapped
  obtain ⟨rfl, same, outputs⟩ := ChannelStrip.process_eq blank answered
  rw [same]
  -- Muted or unconnected, a strip is silent on every frame. Otherwise it works frame by frame.
  by_cases idle : (node.mute || !ports.inputs.isConnected 0) = true
  · rw [taps, if_pos idle] at outputs
    have silent : framesOf (max node.channels 1) (Array.replicate (format.blockSize * max node.channels 1) 0) =
        (ports.inputs.mixed format.blockSize 0 node.channels).map fun _ => Array.replicate (max node.channels 1) 0 := by
      rw [framesOf_replicate positive, List.map_const', ports.inputs.length_mixed]
    refine .of_pair (fun _ => Array.replicate (max node.channels 1) 0)
      (fun _ => Array.replicate (max node.channels 1) 0) rfl (fun _ => if_pos idle) ?_ ?_
    · rw [outputs]
      exact congrArg some silent
    · rw [outputs]
      exact congrArg some silent
  · have size := ports.inputs.size_mixInto 0 (format.blockSize * max node.channels 1)
    have sum := Inputs.framesOf_mixInto shapes
    rw [taps, if_neg idle] at outputs
    refine .of_pair (node.fade (max node.channels 1)) id rfl (fun _ => if_neg idle) ?_ ?_
    · rw [outputs, ← sum]
      exact congrArg some (framesOf_mapIdx positive size
        fun channel sample => node.channelGain channel (max node.channels 1) * sample)
    · rw [outputs, List.map_id, ← sum]
      rfl

theorem Delay.create_proper {samples maxSamples channels : Nat} {node : Delay}
    (made : Delay.create samples maxSamples channels = .ok node) : (Builtin.delay node).Proper := by
  simp only [Delay.create, AudioDelayLine.empty, bind_eq_ok, pure_eq_ok] at made
  obtain ⟨line, ⟨_, _, _, _, rfl⟩, rfl⟩ := made
  exact ⟨rfl, fun frame member => absurd member (Array.not_mem_empty frame), rfl⟩

/-- Every node of the library goes through a block one frame after another. -/
theorem Builtin.played {node : Builtin} (proper : node.Proper) (positive : 0 < format.blockSize)
    (shapes : ∀ source ∈ ports.inputs.sources 0, format.Shapes (.audio node.channels) source.buffer)
    (blank : ports.outputs = (((Node.outputs node).map (·.type)).map format.silence).toArray)
    (answer : Node.process context node ports = .ok (outcome, next, reply)) :
    node.Played (ports.inputs.isConnected 0) (ports.inputs.mixed format.blockSize 0 node.channels) outcome next
      reply := by
  have length := ports.inputs.length_mixed format.blockSize 0 node.channels
  cases node with
  | constant node => exact Constant.played length blank answer
  | gain node => exact Gain.played shapes blank answer
  | impulse node => exact Impulse.played positive length blank answer
  | delay node => exact Delay.played proper shapes blank answer
  | strip node => exact ChannelStrip.played shapes blank answer

end

end Patchbay
