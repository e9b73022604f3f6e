import Patchbay.Proofs.Delay.Transit
import Patchbay.Proofs.Signal.Shape

/-! The events of signals.

MIDI and triggers go through their lines alike. Events of both kinds are taken
together here, each with what it carries.
-/

set_option autoImplicit false

namespace Patchbay

abbrev Message : Type := MidiMessage ⊕ UInt32

section

variable {α β : Type}

def Event.mapBody (change : α → β) (event : Event α) : Event β := ⟨event.frame, change event.body⟩

def Due.mapBody (change : α → β) (due : Due α) : Due β := ⟨due.time, due.event.mapBody change⟩

theorem filter_mapBody (change : α → β) (keep : Nat → Bool) (items : List (Due α)) :
    (items.map (·.mapBody change)).filter (fun due => keep due.time) =
      (items.filter fun due => keep due.time).map (·.mapBody change) := by
  rw [List.filter_map]
  rfl

theorem stamp_mapBody (change : α → β) (clock : Nat) (items : List (Due α)) :
    (items.map (·.mapBody change)).map (EventQueue.stamp clock) =
      (items.map (EventQueue.stamp clock)).map (·.mapBody change) := by
  rw [List.map_map, List.map_map]
  rfl

theorem dueAfter_mapBody (change : α → β) (clock delay : Nat) (events : List (Event α)) :
    (events.map (·.mapBody change)).map (·.dueAfter clock delay) =
      (events.map (·.dueAfter clock delay)).map (·.mapBody change) := by
  rw [List.map_map, List.map_map]
  rfl

end

def SignalBuffer.events : SignalBuffer → List (Event Message)
  | .midi list => list.events.map (·.mapBody .inl)
  | .trigger list => list.events.map (·.mapBody .inr)
  | _ => []

def PortDelay.pending : PortDelay → List (Due Message)
  | .midi queue => queue.pending.map (·.mapBody .inl)
  | .trigger queue => queue.pending.map (·.mapBody .inr)
  | _ => []

def PortType.Timed (type : PortType) : Prop := type = .midi ∨ type = .trigger

theorem PortType.Timed.delayable {type : PortType} (timed : type.Timed) : type.kind ≠ .control := by
  rcases timed with rfl | rfl <;> nofun

instance (type : PortType) : Decidable type.Timed := inferInstanceAs (Decidable (_ ∨ _))

namespace Format

variable {format : Format} {type : PortType} {capacity : Nat}

theorem Shapes.length_events_le {buffer : SignalBuffer} (shapes : format.Shapes type buffer) :
    buffer.events.length ≤ format.eventCapacity := by
  cases shapes with
  | audio | control => exact Nat.zero_le _
  | midi _ few | trigger _ few => simpa [SignalBuffer.events] using few

theorem events_silence (type : PortType) : (format.silence type).events = [] := by
  cases type <;> rfl

theorem pending_emptyLine (capacity : Nat) (type : PortType) :
    (format.emptyLine capacity type).pending = [] := by
  cases type <;> rfl

structure Passes (format : Format) (clock delay lost : Nat) (line next : PortDelay)
    (buffer out : SignalBuffer) : Prop where
  pending : next.pending = (line.pending ++ buffer.events.map (·.dueAfter clock delay)).filter
    (clock + format.blockSize ≤ ·.time)
  lost : lost = ((line.pending ++ buffer.events.map (·.dueAfter clock delay)).filter
    (·.time < clock + format.blockSize)).length - format.eventCapacity
  events : SameBy Event.frame out.events
    ((((line.pending ++ buffer.events.map (·.dueAfter clock delay)).filter
      (·.time < clock + format.blockSize)).map (EventQueue.stamp clock)).take format.eventCapacity)

theorem passes_of_process {Body : Type} (tag : Body → Message) {queue next : EventQueue Body}
    {list out : EventList Body} {clock delay lost : Nat} {line after : PortDelay} {buffer result : SignalBuffer}
    (answer : queue.process list delay clock format.blockSize = .ok (lost, out, next))
    (few : list.events.length ≤ list.capacity) (size : list.capacity = format.eventCapacity)
    (lineIs : line.pending = queue.pending.map (·.mapBody tag))
    (afterIs : after.pending = next.pending.map (·.mapBody tag))
    (bufferIs : buffer.events = list.events.map (·.mapBody tag))
    (resultIs : result.events = out.events.map (·.mapBody tag))
    (room : delay = 0 ∧ line.pending = [] ∨ line.pending.length + buffer.events.length ≤ queue.capacity)
    (inside : ∀ event ∈ buffer.events, event.frame.toNat < format.blockSize) :
    format.Passes clock delay lost line after buffer result := by
  have within : ∀ event ∈ list.events, event.frame.toNat < format.blockSize := fun event member =>
    inside (event.mapBody tag) (bufferIs ▸ List.mem_map.mpr ⟨event, member, rfl⟩)
  rw [lineIs, bufferIs, List.map_eq_nil_iff, List.length_map, List.length_map] at room
  obtain ⟨pending, dropped, events⟩ := EventQueue.process_eq answer room within few rfl
  constructor
  · rw [afterIs, pending, lineIs, bufferIs, dueAfter_mapBody, ← List.map_append]
    exact (filter_mapBody tag (fun time => clock + format.blockSize ≤ time) _).symm
  · rw [lineIs, bufferIs, dueAfter_mapBody, ← List.map_append,
      filter_mapBody tag (fun time => time < clock + format.blockSize), List.length_map, ← size]
    exact dropped
  · rw [lineIs, bufferIs, dueAfter_mapBody, ← List.map_append,
      filter_mapBody tag (fun time => time < clock + format.blockSize), stamp_mapBody, ← List.map_take,
      resultIs, ← size]
    exact events.map _ fun _ _ _ _ => .rfl

theorem Holds.passes {line next : PortDelay} {buffer out : SignalBuffer} {clock delay lost : Nat}
    (holds : format.Holds capacity type line) (shapes : format.Shapes type buffer) (timed : type.Timed)
    (room : delay = 0 ∧ line.pending = [] ∨
      line.pending.length + buffer.events.length ≤ format.places capacity)
    (inside : ∀ event ∈ buffer.events, event.frame.toNat < format.blockSize)
    (answer : line.apply buffer delay clock format.blockSize = .ok (lost, out, next)) :
    format.Passes clock delay lost line next buffer out := by
  rcases timed with rfl | rfl
  · cases holds with
    | @midi queue places =>
      cases shapes with
      | @midi list size few =>
        simp only [PortDelay.apply, bind_eq_ok, pure_eq_ok, Prod.exists, Prod.mk.injEq] at answer
        obtain ⟨_, events, after, answered, rfl, rfl, rfl⟩ := answer
        exact passes_of_process .inl answered (size ▸ few) size rfl rfl rfl rfl (places ▸ room) inside
  · cases holds with
    | @trigger queue places =>
      cases shapes with
      | @trigger list size few =>
        simp only [PortDelay.apply, bind_eq_ok, pure_eq_ok, Prod.exists, Prod.mk.injEq] at answer
        obtain ⟨_, events, after, answered, rfl, rfl, rfl⟩ := answer
        exact passes_of_process .inr answered (size ▸ few) size rfl rfl rfl rfl (places ▸ room) inside

theorem Holds.lost_eq_zero {line next : PortDelay} {buffer out : SignalBuffer}
    {clock delay blockSize lost : Nat} (holds : format.Holds capacity type line)
    (shapes : format.Shapes type buffer) (untimed : ¬ type.Timed)
    (answer : line.apply buffer delay clock blockSize = .ok (lost, out, next)) : lost = 0 := by
  cases shapes with
  | audio =>
    cases holds
    simp only [PortDelay.apply, bind_eq_ok, pure_eq_ok, Prod.exists, Prod.mk.injEq] at answer
    obtain ⟨_, _, _, rfl, _⟩ := answer
    rfl
  | control =>
    cases holds
    cases answer
    rfl
  | midi => exact absurd (.inl rfl) untimed
  | trigger => exact absurd (.inr rfl) untimed

end Format

end Patchbay
