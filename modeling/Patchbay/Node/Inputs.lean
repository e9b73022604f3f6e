import Patchbay.Signal.Buffer

/-! The routed inputs of a node for one block.

Nothing is merged before the node asks. Audio is the sum of the sources, each
scaled by its edge's gain; MIDI and triggers are the union ordered by frame,
ties in the order of the edges; control is the mean of the sources' ramps.
A single source that needs no merging is handed through as it is, otherwise
the merge happens in space reserved beforehand.
-/

set_option autoImplicit false

namespace Patchbay

structure Source where
  buffer : SignalBuffer
  gain : Sample
  deriving DecidableEq

/-- Space for merges, shared by all nodes of a plan. -/
structure MergeSpace where
  audio : Array Sample
  midi : EventList MidiMessage
  trigger : EventList UInt32
  deriving DecidableEq

/-- For each input port its sources, in the order of their edges. -/
structure Inputs where
  ports : List (List Source)
  space : MergeSpace
  /-- Events left out so far for want of merge space. -/
  dropped : Nat
  deriving DecidableEq

def mixSources (sources : List Source) (target : Array Sample) : Array Sample :=
  sources.foldl (fun mixed source =>
    match source.buffer.audio? with
    | some block => addScaled mixed block.samples source.gain
    | none => mixed) target

def gather {Body : Type} (space : EventList Body) (lists : List (Option (EventList Body))) :
    Nat × EventList Body :=
  lists.foldl (fun (dropped, space) list =>
    match list with
    | some list =>
        let (more, space) := space.append list.events
        (dropped + more, space)
    | none => (dropped, space)) (0, space.clear)

/-- The union of event lists ordered by frame, with the count of events left out
and the space after the merge. A list is absent where a source is of another
kind; a single source is passed on if it is in order, and counts as unconnected
if it is absent. -/
def mergeEvents {Body : Type} (space : EventList Body) (lists : List (Option (EventList Body))) :
    Option (List (Event Body)) × Nat × EventList Body :=
  let merged := fun (_ : Unit) =>
    let (dropped, space) := gather space lists
    (some space.sort.events, dropped, space.sort)
  match lists with
  | [] => (none, 0, space)
  | [none] => (none, 0, space)
  | [some list] => if list.isSorted then (some list.events, 0, space) else merged ()
  | _ => merged ()

namespace Inputs

def sources (inputs : Inputs) (port : Nat) : List Source := inputs.ports[port]?.getD []

def portCount (inputs : Inputs) : Nat := inputs.ports.length

def isConnected (inputs : Inputs) (port : Nat) : Bool := !(inputs.sources port).isEmpty

def audio (inputs : Inputs) (port : Nat) : Checked (Option (Array Sample) × Inputs) :=
  let sources := inputs.sources port
  match sources with
  | [] => .ok (none, inputs)
  | first :: rest =>
      match first.buffer.audio? with
      | none => .ok (none, inputs)
      | some block =>
          if rest.isEmpty && first.gain = 1 then .ok (some block.samples, inputs)
          else
            let size := block.samples.size
            let space := inputs.space.audio
            if space.size < size then .error .outOfRange
            else
              let mixed := mixSources sources (Array.replicate size 0)
              .ok (some mixed, { inputs with
                space := { inputs.space with audio := mixed ++ space.extract size space.size } })

def mixInto (inputs : Inputs) (port : Nat) (target : Array Sample) : Bool × Array Sample :=
  (inputs.isConnected port, mixSources (inputs.sources port) target)

def midi (inputs : Inputs) (port : Nat) : Option (List MidiEvent) × Inputs :=
  let (events, dropped, midi) :=
    mergeEvents inputs.space.midi ((inputs.sources port).map (·.buffer.midi?))
  (events, { inputs with
    space := { inputs.space with midi }, dropped := inputs.dropped + dropped })

def triggers (inputs : Inputs) (port : Nat) : Option (List Trigger) × Inputs :=
  let (events, dropped, trigger) :=
    mergeEvents inputs.space.trigger ((inputs.sources port).map (·.buffer.trigger?))
  (events, { inputs with
    space := { inputs.space with trigger }, dropped := inputs.dropped + dropped })

def control (inputs : Inputs) (port : Nat) : Option Ramp :=
  let ramps := (inputs.sources port).filterMap (·.buffer.control?)
  if ramps.isEmpty then none
  else
    let sum := ramps.foldl
      (fun sum ramp => Ramp.mk (sum.start + ramp.start) (sum.stop + ramp.stop)) Ramp.zero
    let count := Sample.ofFloat (UInt32.ofNat ramps.length).toFloat32
    some ⟨sum.start / count, sum.stop / count⟩

/-- The channel count of a port's first source, if that is audio. -/
def audioChannels (inputs : Inputs) (port : Nat) : Option Nat := do
  let first ← (inputs.sources port).head?
  return (← first.buffer.audio?).channels

end Inputs

end Patchbay
