import Patchbay.Node.Basic
import Patchbay.Delay.Ring

/-! The nodes that come with the library: sources and processors for wiring, and
the channel strip of which mixers are made. -/

set_option autoImplicit false

namespace Patchbay

def Outcome.noOutput : Outcome := .failed "audio output port missing"

structure Constant where
  value : Sample
  channels : Nat
  deriving DecidableEq

instance : Node Constant where
  name _ := "constant"
  inputs _ := []
  outputs node := [.audio "out" node.channels]
  process _ node ports :=
    match ports.audioOut? 0 with
    | none => .ok (.noOutput, node, ports)
    | some block => .ok (.done, node, ports.put 0 (.audio (block.fill node.value)))

structure Gain where
  gain : Sample
  channels : Nat
  deriving DecidableEq

instance : Node Gain where
  name _ := "gain"
  inputs node := [.audio "in" node.channels]
  outputs node := [.audio "out" node.channels]
  process _ node ports :=
    match ports.audioOut? 0 with
    | none => .ok (.noOutput, node, ports)
    | some block =>
        let (_, mixed) := ports.inputs.mixInto 0 block.samples
        .ok (.done, node, ports.putSamples 0 block (mixed.map (node.gain * ·)))

structure Impulse where
  channels : Nat
  fired : Bool := false
  deriving DecidableEq

/-- Sets the first `count` samples of a block, if it has as many. -/
def setFirst (samples : Array Sample) (count : Nat) (value : Sample) : Array Sample :=
  if count ≤ samples.size then Array.replicate count value ++ samples.extract count samples.size
  else samples

instance : Node Impulse where
  name _ := "impulse"
  inputs _ := []
  outputs node := [.audio "out" node.channels]
  process _ node ports :=
    if node.fired then .ok (.done, node, ports)
    else
      match ports.audioOut? 0 with
      | none => .ok (.noOutput, node, ports)
      | some block =>
          .ok (.done, { node with fired := true },
            ports.putSamples 0 block (setFirst block.samples block.channels 1))
  reset node := { node with fired := false }

/-- A delay that reports its setting as its latency. It stands for any processor
that looks ahead. -/
structure Delay where
  /-- The requested delay in samples. -/
  samples : Nat
  /-- The longest delay; larger requests are limited to it. -/
  maxSamples : Nat
  channels : Nat
  line : AudioDelayLine
  /-- The number of the knob that sets the delay, if it has one. -/
  knob : Option Nat := none

namespace Delay

def create (samples maxSamples channels : Nat) : Checked Delay := do
  let maxSamples := max maxSamples samples
  return { samples, maxSamples, channels, line := ← AudioDelayLine.empty maxSamples channels }

def request (delay : Delay) (samples : Nat) : Delay := { delay with samples }

def turn (knob samples : Nat) (delay : Delay) : Delay :=
  if delay.knob = some knob then delay.request samples else delay

def setting (delay : Delay) : Nat := min delay.samples delay.maxSamples

end Delay

instance : Node Delay where
  name _ := "delay"
  inputs node := [.audio "in" node.channels]
  outputs node := [.audio "out" node.channels]
  latency := Delay.setting
  maxLatency node := node.maxSamples
  process _ node ports :=
    match ports.audioOut? 0 with
    | none => .ok (.noOutput, node, ports)
    | some block => do
        let (_, mixed) := ports.inputs.mixInto 0 block.samples
        let (samples, line) ← node.line.process mixed node.setting
        return (.done, { node with line }, ports.putSamples 0 block samples)
  reset node := { node with line := node.line.clear }

/-- A mixer channel with volume, balance and mute. Its first output is behind
the fader, its second before it. -/
structure ChannelStrip where
  name : String
  channels : Nat
  volume : Sample := 1
  /-- From -1, left, to 1, right. -/
  pan : Sample := 0
  mute : Bool := false
  deriving DecidableEq

namespace ChannelStrip

def post : Nat := 0

def pre : Nat := 1

def withPan (strip : ChannelStrip) (pan : Sample) : ChannelStrip :=
  { strip with pan := Ramp.clamp pan (-1) 1 }

/-- The gain of one channel. On a stereo strip the far side is attenuated and the
near side stays at the fader level; otherwise balance has no effect. -/
def channelGain (strip : ChannelStrip) (channel channels : Nat) : Sample :=
  if channels = 2 then
    let side : Sample :=
      if channel = 0 then 1 - (if 0 < strip.pan then strip.pan else 0)
      else 1 + (if strip.pan < 0 then strip.pan else 0)
    strip.volume * side
  else strip.volume

def fade (strip : ChannelStrip) (channels : Nat) (samples : Array Sample) : Array Sample :=
  samples.mapIdx fun position sample =>
    strip.channelGain (position % channels) channels * sample

end ChannelStrip

instance : Node ChannelStrip where
  name := ChannelStrip.name
  inputs node := [.audio "in" node.channels]
  outputs node := [.audio "post" node.channels, .audio "pre" node.channels]
  process _ node ports :=
    if node.mute || !ports.inputs.isConnected 0 then .ok (.done, node, ports)
    else
      let ports :=
        match ports.audioOut? ChannelStrip.pre with
        | some block =>
            let (_, mixed) := ports.inputs.mixInto 0 block.samples
            ports.putSamples ChannelStrip.pre block mixed
        | none => ports
      match ports.audioOut? ChannelStrip.post with
      | none => .ok (.noOutput, node, ports)
      | some block =>
          let (_, mixed) := ports.inputs.mixInto 0 block.samples
          .ok (.done, node,
            ports.putSamples ChannelStrip.post block (node.fade block.channels mixed))

inductive Builtin where
  | constant (node : Constant)
  | gain (node : Gain)
  | impulse (node : Impulse)
  | delay (node : Delay)
  | strip (node : ChannelStrip)

def Builtin.turn (knob samples : Nat) : Builtin → Builtin
  | .delay node => .delay (node.turn knob samples)
  | node => node

instance : Node Builtin where
  name
    | .constant node => Node.name node
    | .gain node => Node.name node
    | .impulse node => Node.name node
    | .delay node => Node.name node
    | .strip node => Node.name node
  inputs
    | .constant node => Node.inputs node
    | .gain node => Node.inputs node
    | .impulse node => Node.inputs node
    | .delay node => Node.inputs node
    | .strip node => Node.inputs node
  outputs
    | .constant node => Node.outputs node
    | .gain node => Node.outputs node
    | .impulse node => Node.outputs node
    | .delay node => Node.outputs node
    | .strip node => Node.outputs node
  latency
    | .delay node => Node.latency node
    | _ => 0
  maxLatency
    | .delay node => Node.maxLatency node
    | _ => 0
  process context node ports := do
    match node with
    | .constant node =>
        let (outcome, node, ports) ← Node.process context node ports
        return (outcome, .constant node, ports)
    | .gain node =>
        let (outcome, node, ports) ← Node.process context node ports
        return (outcome, .gain node, ports)
    | .impulse node =>
        let (outcome, node, ports) ← Node.process context node ports
        return (outcome, .impulse node, ports)
    | .delay node =>
        let (outcome, node, ports) ← Node.process context node ports
        return (outcome, .delay node, ports)
    | .strip node =>
        let (outcome, node, ports) ← Node.process context node ports
        return (outcome, .strip node, ports)
  reset
    | .impulse node => .impulse (Node.reset node)
    | .delay node => .delay (Node.reset node)
    | node => node

end Patchbay
