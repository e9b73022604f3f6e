import Patchbay.Plan.Basic

/-! The space that rendering a plan needs besides the plan itself. -/

set_option autoImplicit false

namespace Patchbay

structure Scratch where
  /-- Places for the sources of one node. -/
  sourceRoom : Nat
  /-- Places for the input ports of one node. -/
  portRoom : Nat
  space : MergeSpace
  /-- The last block rendered. -/
  output : AudioBuffer
  deriving DecidableEq

namespace Scratch

def none : Scratch where
  sourceRoom := 0
  portRoom := 0
  space := ⟨#[], .empty 0, .empty 0⟩
  output := ⟨#[], 1⟩

def forLayout (layout : Layout) : Checked Scratch := do
  let events ← layout.mergedEvents
  Count.reserve layout.maxInputSamples 4
  return {
    sourceRoom := layout.maxNodeRoutes
    portRoom := layout.maxNodeInputs
    space := {
      audio := Array.replicate layout.maxInputSamples 0
      midi := ← EventList.reserved events
      trigger := ← EventList.reserved events }
    output := ← AudioBuffer.silence layout.blockSize layout.sinkChannels }

/-- A plan can be rendered in this space, and its blocks have the right shape. -/
def fits (scratch : Scratch) (layout : Layout) : Checked Bool := do
  let events ← layout.mergedEvents
  return layout.maxNodeRoutes ≤ scratch.sourceRoom
    && layout.maxNodeInputs ≤ scratch.portRoom
    && layout.maxInputSamples ≤ scratch.space.audio.size
    && events ≤ scratch.space.midi.capacity
    && events ≤ scratch.space.trigger.capacity
    && scratch.output.frames = layout.blockSize
    && scratch.output.channels = layout.sinkChannels

end Scratch

end Patchbay
