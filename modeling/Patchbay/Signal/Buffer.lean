import Patchbay.Signal.Port
import Patchbay.Signal.Audio
import Patchbay.Signal.Event
import Patchbay.Signal.Ramp

/-! The signal of one port for one block.

Storage is reserved once, for a port, a block size and an event capacity, and
keeps its shape from then on.
-/

set_option autoImplicit false

namespace Patchbay

inductive SignalBuffer where
  | audio (block : AudioBuffer)
  | midi (list : EventList MidiMessage)
  | control (ramp : Ramp)
  | trigger (list : EventList UInt32)
  deriving DecidableEq

namespace SignalBuffer

def forPort (port : PortType) (blockSize eventCapacity : Nat) : Checked SignalBuffer :=
  match port with
  | .audio channels => return .audio (← AudioBuffer.silence blockSize channels)
  | .midi => return .midi (← EventList.reserved eventCapacity)
  | .control => .ok (.control .zero)
  | .trigger => return .trigger (← EventList.reserved eventCapacity)

def kind : SignalBuffer → SignalKind
  | .audio _ => .audio
  | .midi _ => .midi
  | .control _ => .control
  | .trigger _ => .trigger

def clear : SignalBuffer → SignalBuffer
  | .audio block => .audio block.clear
  | .midi list => .midi list.clear
  | .control _ => .control .zero
  | .trigger list => .trigger list.clear

/-- Takes over another buffer's signal and counts the events that find no room.
A signal of another kind leaves silence. -/
def copyFrom (target source : SignalBuffer) : Checked (Nat × SignalBuffer) :=
  match target, source with
  | .audio block, .audio other => return (0, .audio (← block.copyFrom other.samples))
  | .midi list, .midi other =>
      let (dropped, list) := list.clear.append other.events
      .ok (dropped, .midi list)
  | .control _, .control ramp => .ok (0, .control ramp)
  | .trigger list, .trigger other =>
      let (dropped, list) := list.clear.append other.events
      .ok (dropped, .trigger list)
  | target, _ => .ok (0, target.clear)

def audio? : SignalBuffer → Option AudioBuffer
  | .audio block => some block
  | _ => none

def midi? : SignalBuffer → Option (EventList MidiMessage)
  | .midi list => some list
  | _ => none

def control? : SignalBuffer → Option Ramp
  | .control ramp => some ramp
  | _ => none

def trigger? : SignalBuffer → Option (EventList UInt32)
  | .trigger list => some list
  | _ => none

def isSilent : SignalBuffer → Bool
  | .audio block => block.isSilent
  | .midi list => list.events.isEmpty
  | .control ramp => ramp.isZero
  | .trigger list => list.events.isEmpty

end SignalBuffer

end Patchbay
