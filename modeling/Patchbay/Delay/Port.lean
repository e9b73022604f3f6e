import Patchbay.Signal.Buffer
import Patchbay.Delay.Ring
import Patchbay.Delay.Queue

/-! The delay line behind one port, of the kind that the port's signal needs.
Control ramps are never delayed. -/

set_option autoImplicit false

namespace Patchbay

inductive PortDelay where
  | audio (line : AudioDelayLine)
  | midi (queue : EventQueue MidiMessage)
  | trigger (queue : EventQueue UInt32)
  | passthrough

namespace PortDelay

def queueFor {Body : Type} (list : EventList Body) (capacity blockSize : Nat) :
    Checked (EventQueue Body) := do
  EventQueue.reserved (← EventQueue.places list.capacity capacity blockSize)

def forBuffer (buffer : SignalBuffer) (capacity blockSize : Nat) : Checked PortDelay :=
  match buffer with
  | .audio block => return .audio (← AudioDelayLine.empty capacity block.channels)
  | .midi list => return .midi (← queueFor list capacity blockSize)
  | .trigger list => return .trigger (← queueFor list capacity blockSize)
  | .control _ => .ok .passthrough

/-- Delays a buffer in place and counts the events that found no room. A buffer
of another kind passes unchanged. -/
def apply (line : PortDelay) (buffer : SignalBuffer) (delay clock blockSize : Nat) :
    Checked (Nat × SignalBuffer × PortDelay) :=
  match line, buffer with
  | .audio line, .audio block => do
      let (samples, line) ← line.process block.samples delay
      return (0, .audio { block with samples }, .audio line)
  | .midi queue, .midi list => do
      let (dropped, list, queue) ← queue.process list delay clock blockSize
      return (dropped, .midi list, .midi queue)
  | .trigger queue, .trigger list => do
      let (dropped, list, queue) ← queue.process list delay clock blockSize
      return (dropped, .trigger list, .trigger queue)
  | line, buffer => .ok (0, buffer, line)

def clear : PortDelay → PortDelay
  | .audio line => .audio line.clear
  | .midi queue => .midi queue.clear
  | .trigger queue => .trigger queue.clear
  | .passthrough => .passthrough

end PortDelay

end Patchbay
