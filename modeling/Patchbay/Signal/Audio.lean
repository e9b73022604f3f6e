import Patchbay.Fault
import Patchbay.Signal.Sample

/-! Blocks of interleaved audio.

A block of `n` frames with `c` channels holds `n * c` samples, frame after
frame. Sums are formed sample by sample, in the order in which the sources are
given.
-/

set_option autoImplicit false

namespace Patchbay

/-- Adds `source`, scaled by `gain`, onto `target`. The shorter of the two
decides how many samples change. -/
def addScaled (target source : Array Sample) (gain : Sample) : Array Sample :=
  target.mapIdx fun position sample =>
    match source[position]? with
    | some addend => gain * addend + sample
    | none => sample

structure AudioBuffer where
  samples : Array Sample
  channels : Nat
  deriving DecidableEq

namespace AudioBuffer

def silence (frames channels : Nat) : Checked AudioBuffer := do
  let channels := max channels 1
  let size ← Count.mul frames channels
  Count.reserve size 4
  return { samples := Array.replicate size 0, channels }

def frames (buffer : AudioBuffer) : Nat := buffer.samples.size / buffer.channels

def fill (buffer : AudioBuffer) (sample : Sample) : AudioBuffer :=
  { buffer with samples := Array.replicate buffer.samples.size sample }

def clear (buffer : AudioBuffer) : AudioBuffer := buffer.fill 0

def copyFrom (buffer : AudioBuffer) (source : Array Sample) : Checked AudioBuffer :=
  if source.size = buffer.samples.size then .ok { buffer with samples := source }
  else .error .lengthMismatch

def add (buffer : AudioBuffer) (source : Array Sample) (gain : Sample) : AudioBuffer :=
  { buffer with samples := addScaled buffer.samples source gain }

def isSilent (buffer : AudioBuffer) : Bool := buffer.samples.all (·.isZero)

end AudioBuffer

end Patchbay
