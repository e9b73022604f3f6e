import Patchbay.Error

/-! Where rendered blocks go. -/

set_option autoImplicit false

namespace Patchbay

/-- The outcome of one step of a sink, and the sink after it. A step that faults
leaves a sink as well. -/
abbrev SinkStep (σ : Type) := Checked (Except EngineError Unit) × σ

class BlockSink (σ : Type) where
  /-- Takes one block of interleaved samples. -/
  write : (samples : Array Sample) → (channels : Nat) → σ → SinkStep σ
  /-- Closes the sink after the last block. -/
  finish : σ → SinkStep σ := fun sink => (.ok (.ok ()), sink)

structure MemorySink where
  samples : Array Sample := #[]
  /-- The channel count of the last block; zero before the first. -/
  channels : Nat := 0
  deriving DecidableEq

def MemorySink.frames (sink : MemorySink) : Nat := sink.samples.size / sink.channels

instance : BlockSink MemorySink where
  write samples channels sink := (.ok (.ok ()), { samples := sink.samples ++ samples, channels })

end Patchbay
