import Patchbay.Signal.Audio

/-! The sample ring: a delay that may change from block to block.

Every frame that passes is recorded, also at delay zero, so a longer delay set
later plays back what really went by. A frame is read before its cell is
written, which is what makes the full capacity usable as a delay.
-/

set_option autoImplicit false

namespace Patchbay

/-- The last frames that went by, at most `capacity` of them. Cells come into being
as they are first written. -/
structure Ring (Frame : Type) where
  capacity : Nat
  cells : Array Frame := #[]
  /-- The cell of the next frame. -/
  write : Nat := 0
  deriving DecidableEq

namespace Ring

variable {Frame : Type}

/-- Sends one frame through the ring and takes out the one `delay` frames
before it, if that many went by. -/
def step (ring : Ring Frame) (delay : Nat) (frame : Frame) : Option Frame × Ring Frame :=
  let delayed :=
    if delay = 0 then some frame
    else ring.cells[(ring.write + ring.capacity - delay) % ring.capacity]?
  let cells :=
    if ring.write < ring.cells.size then ring.cells.setIfInBounds ring.write frame
    else ring.cells.push frame
  (delayed, { ring with cells, write := (ring.write + 1) % ring.capacity })

def run (ring : Ring Frame) (delay : Nat) (frames : List Frame) :
    List (Option Frame) × Ring Frame :=
  let (delayed, ring) := frames.foldl
    (fun (delayed, ring) frame =>
      let (out, ring) := ring.step delay frame
      (out :: delayed, ring)) ([], ring)
  (delayed.reverse, ring)

end Ring

def splitFrames (channels : Nat) (samples : Array Sample) : List (Array Sample) × Array Sample :=
  let count := samples.size / channels
  ((List.range count).map fun frame =>
      samples.extract (frame * channels) ((frame + 1) * channels),
    samples.extract (count * channels) samples.size)

def joinFrames (frames : List (Array Sample)) (rest : Array Sample) : Array Sample :=
  frames.foldl (· ++ ·) #[] ++ rest

structure AudioDelayLine where
  ring : Ring (Array Sample)
  channels : Nat

namespace AudioDelayLine

/-- A silent line of `capacity` frames; zero channels count as one. -/
def empty (capacity channels : Nat) : Checked AudioDelayLine := do
  let channels := max channels 1
  let size ← Count.mul capacity channels
  Count.reserve size 4
  return ⟨{ capacity }, channels⟩

def capacity (line : AudioDelayLine) : Nat := line.ring.capacity

def heard (line : AudioDelayLine) : Option (Array Sample) → Array Sample
  | some frame => frame
  | none => Array.replicate line.channels 0

/-- Delays the whole frames of a block; samples after the last whole frame pass
unchanged. A line without capacity changes nothing. -/
def process (line : AudioDelayLine) (block : Array Sample) (delay : Nat) :
    Checked (Array Sample × AudioDelayLine) :=
  if line.capacity = 0 then .ok (block, line)
  else if line.capacity < delay then .error .delayTooLong
  else
    let (frames, rest) := splitFrames line.channels block
    let (delayed, ring) := line.ring.run delay frames
    .ok (joinFrames (delayed.map line.heard) rest, { line with ring })

def clear (line : AudioDelayLine) : AudioDelayLine :=
  { line with ring := { capacity := line.capacity } }

end AudioDelayLine

end Patchbay
