import Patchbay.Delay.Port
import Patchbay.Proofs.Delay.Queue
import Patchbay.Proofs.Delay.Ring

/-! The shapes of signals and of the lines behind them.

A port's type, the block size and the event capacity fix what its buffer looks
like. Copying between buffers of one shape loses nothing.
-/

set_option autoImplicit false

namespace Patchbay

@[simp] theorem SignalBuffer.clear_clear (buffer : SignalBuffer) : buffer.clear.clear = buffer.clear := by
  cases buffer <;> simp [clear, AudioBuffer.clear, AudioBuffer.fill, EventList.clear]

structure Format where
  blockSize : Nat
  eventCapacity : Nat

namespace Format

variable (format : Format)

def places (capacity : Nat) : Nat :=
  if capacity = 0 then 0
  else format.eventCapacity *
    ((capacity + max format.blockSize 1 - 1) / max format.blockSize 1 + 1)

inductive Shapes : PortType → SignalBuffer → Prop where
  | audio {channels : Nat} {block : AudioBuffer} : block.channels = max channels 1 →
      block.samples.size = format.blockSize * max channels 1 →
      Shapes (.audio channels) (.audio block)
  | midi {list : EventList MidiMessage} : list.capacity = format.eventCapacity →
      list.events.length ≤ format.eventCapacity → Shapes .midi (.midi list)
  | control {ramp : Ramp} : Shapes .control (.control ramp)
  | trigger {list : EventList UInt32} : list.capacity = format.eventCapacity →
      list.events.length ≤ format.eventCapacity → Shapes .trigger (.trigger list)

/-- The delay line has the kind and the length for a port's signal, and no more events
in flight than it has places for. -/
inductive Holds (capacity : Nat) : PortType → PortDelay → Prop where
  | audio {channels : Nat} {line : AudioDelayLine} : line.channels = max channels 1 →
      line.capacity = capacity → (∃ history, line.Recalls history) →
      Holds capacity (.audio channels) (.audio line)
  | midi {queue : EventQueue MidiMessage} : queue.capacity = format.places capacity → queue.Within →
      Holds capacity .midi (.midi queue)
  | control : Holds capacity .control .passthrough
  | trigger {queue : EventQueue UInt32} : queue.capacity = format.places capacity → queue.Within →
      Holds capacity .trigger (.trigger queue)

def silence : PortType → SignalBuffer
  | .audio channels => .audio ⟨Array.replicate (format.blockSize * max channels 1) 0, max channels 1⟩
  | .midi => .midi (.empty format.eventCapacity)
  | .control => .control .zero
  | .trigger => .trigger (.empty format.eventCapacity)

def emptyLine (capacity : Nat) : PortType → PortDelay
  | .audio channels => .audio ⟨{ capacity }, max channels 1⟩
  | .midi => .midi (.empty (format.places capacity))
  | .control => .passthrough
  | .trigger => .trigger (.empty (format.places capacity))

variable {format} {type : PortType} {capacity : Nat}

theorem shapes_silence (type : PortType) : format.Shapes type (format.silence type) := by
  cases type with
  | audio channels => exact .audio rfl (Array.size_replicate ..)
  | midi => exact .midi rfl (Nat.zero_le _)
  | control => exact .control
  | trigger => exact .trigger rfl (Nat.zero_le _)

theorem recalls_empty (capacity channels : Nat) :
    (⟨{ capacity }, max channels 1⟩ : AudioDelayLine).Recalls [] :=
  ⟨by dsimp only; omega, by simp, fun _ => .empty capacity⟩

theorem holds_emptyLine (capacity : Nat) (type : PortType) :
    format.Holds capacity type (format.emptyLine capacity type) := by
  cases type with
  | audio channels => exact .audio rfl rfl ⟨[], recalls_empty capacity channels⟩
  | midi => exact .midi rfl (Nat.zero_le _)
  | control => exact .control
  | trigger => exact .trigger rfl (Nat.zero_le _)

theorem Shapes.clear_eq {buffer : SignalBuffer} (shapes : format.Shapes type buffer) :
    buffer.clear = format.silence type := by
  cases shapes with
  | @audio channels block count size =>
    simp only [SignalBuffer.clear, AudioBuffer.clear, AudioBuffer.fill, silence, size, count]
  | @midi list room => simp [SignalBuffer.clear, EventList.clear, EventList.empty, silence, room]
  | control => rfl
  | @trigger list room => simp [SignalBuffer.clear, EventList.clear, EventList.empty, silence, room]

theorem Shapes.clear {buffer : SignalBuffer} (shapes : format.Shapes type buffer) :
    format.Shapes type buffer.clear := by
  rw [shapes.clear_eq]
  exact shapes_silence type

theorem Holds.clear_eq {line : PortDelay} (holds : format.Holds capacity type line) :
    line.clear = format.emptyLine capacity type := by
  cases holds with
  | @audio channels line count size _ =>
    simp only [PortDelay.clear, AudioDelayLine.clear, emptyLine, ← count, ← size,
      AudioDelayLine.capacity]
  | @midi queue room _ => simp [PortDelay.clear, EventQueue.clear, EventQueue.empty, emptyLine, room]
  | control => rfl
  | @trigger queue room _ => simp [PortDelay.clear, EventQueue.clear, EventQueue.empty, emptyLine, room]

theorem append_all {Body : Type} {list other : EventList Body} (capacity : list.capacity = other.capacity)
    (fits : other.events.length ≤ other.capacity) : list.clear.append other.events = (0, other) := by
  have kept : other.events.take (list.clear.capacity - list.clear.events.length) = other.events :=
    List.take_of_length_le (by simpa [EventList.clear, capacity] using fits)
  unfold EventList.append
  rw [kept]
  cases other
  simp_all [EventList.clear]

theorem Shapes.copyFrom_eq {target source : SignalBuffer} (shapes : format.Shapes type target)
    (same : format.Shapes type source) : target.copyFrom source = .ok (0, source) := by
  cases shapes with
  | @audio channels block count size =>
    cases same with
    | @audio _ other otherCount otherSize =>
      simp only [SignalBuffer.copyFrom, AudioBuffer.copyFrom, size, otherSize, if_true, ok_bind,
        count, ← otherCount]
      rfl
  | @midi list room fits =>
    cases same with
    | @midi other otherRoom otherFits =>
      simp only [SignalBuffer.copyFrom]
      rw [append_all (room.trans otherRoom.symm) (otherRoom ▸ otherFits)]
  | control =>
    cases same
    rfl
  | @trigger list room fits =>
    cases same with
    | @trigger other otherRoom otherFits =>
      simp only [SignalBuffer.copyFrom]
      rw [append_all (room.trans otherRoom.symm) (otherRoom ▸ otherFits)]

theorem Holds.apply {line next : PortDelay} {buffer out : SignalBuffer}
    {delay clock blockSize dropped : Nat} (holds : format.Holds capacity type line)
    (shapes : format.Shapes type buffer) (fits : delay ≤ capacity)
    (answer : line.apply buffer delay clock blockSize = .ok (dropped, out, next)) :
    format.Shapes type out ∧ format.Holds capacity type next := by
  cases holds with
  | @audio channels line count length recalls =>
    cases shapes with
    | @audio _ block same size =>
      obtain ⟨history, recalls⟩ := recalls
      -- The line is as wide as the block, so it can take it.
      rw [← count] at size
      obtain ⟨samples, after, answered, whole, kept, room, recalled, _⟩ :=
        recalls.process size (length ▸ fits)
      simp only [PortDelay.apply, answered, ok_bind, pure_eq_ok, Prod.mk.injEq] at answer
      obtain ⟨_, rfl, rfl⟩ := answer
      exact ⟨.audio same (count ▸ whole), .audio (kept.trans count) (room.trans length) ⟨_, recalled⟩⟩
  | @midi queue room within =>
    cases shapes with
    | @midi list size few =>
      simp only [PortDelay.apply, bind_eq_ok, pure_eq_ok, Prod.exists, Prod.mk.injEq] at answer
      obtain ⟨_, events, after, answered, _, rfl, rfl⟩ := answer
      obtain ⟨kept, still, length⟩ := EventQueue.process_shape answered (size ▸ few)
      exact ⟨.midi (kept.trans size) (size ▸ length),
        .midi (still.trans room) (EventQueue.process_within answered within)⟩
  | control =>
    cases shapes
    cases answer
    exact ⟨.control, .control⟩
  | @trigger queue room within =>
    cases shapes with
    | @trigger list size few =>
      simp only [PortDelay.apply, bind_eq_ok, pure_eq_ok, Prod.exists, Prod.mk.injEq] at answer
      obtain ⟨_, events, after, answered, _, rfl, rfl⟩ := answer
      obtain ⟨kept, still, length⟩ := EventQueue.process_shape answered (size ▸ few)
      exact ⟨.trigger (kept.trans size) (size ▸ length),
        .trigger (still.trans room) (EventQueue.process_within answered within)⟩

end Format

end Patchbay
