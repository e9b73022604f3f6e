import Patchbay.Signal.Sample

/-! Control values: one linear ramp per block. -/

set_option autoImplicit false

namespace Patchbay

structure Ramp where
  start : Sample
  stop : Sample
  deriving DecidableEq

namespace Ramp

def zero : Ramp := ⟨0, 0⟩

def constant (value : Sample) : Ramp := ⟨value, value⟩

/-- Limits a value to an interval. What compares with neither bound stays as
it is. -/
def clamp (value low high : Sample) : Sample :=
  if value < low then low else if high < value then high else value

def value (ramp : Ramp) (time : Sample) : Sample :=
  ramp.start + (ramp.stop - ramp.start) * clamp time 0 1

def isZero (ramp : Ramp) : Bool := ramp.start.isZero && ramp.stop.isZero

end Ramp

end Patchbay
