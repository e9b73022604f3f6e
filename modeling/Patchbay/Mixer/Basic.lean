import Patchbay.Signal.Audio

/-! The mixer: tracks and buses, each with one output and any number of sends. -/

set_option autoImplicit false

namespace Patchbay

structure TrackId where
  index : Nat
  deriving DecidableEq

structure BusId where
  index : Nat
  deriving DecidableEq

def TrackId.text (id : TrackId) : String := "TrackId(" ++ toString id.index ++ ")"

def BusId.text (id : BusId) : String := "BusId(" ++ toString id.index ++ ")"

inductive MixerNode where
  | track (id : TrackId)
  | bus (id : BusId)
  | master
  deriving DecidableEq

def MixerNode.text : MixerNode → String
  | .track id => id.text
  | .bus id => id.text
  | .master => "Master"

inductive OutputTarget where
  | master
  | bus (id : BusId)
  deriving DecidableEq

/-- A copy of a strip's signal to a bus, taken before or behind the fader. -/
structure Send where
  bus : BusId
  amount : Sample
  preFader : Bool
  deriving DecidableEq

structure MixerStrip where
  name : String
  output : OutputTarget := .master
  sends : List Send := []
  volume : Sample := 1
  pan : Sample := 0
  mute : Bool := false
  deriving DecidableEq

namespace MixerStrip

def targets (strip : MixerStrip) : List BusId :=
  (match strip.output with
    | .master => []
    | .bus id => [id]) ++ strip.sends.map (·.bus)

end MixerStrip

structure Track where
  strip : MixerStrip
  solo : Bool := false
  deriving DecidableEq

abbrev Bus := MixerStrip

/-- Ids are handed out in ascending order and never again. -/
structure Mixer where
  channels : Nat
  masterVolume : Sample
  tracks : List (TrackId × Track)
  buses : List (BusId × Bus)
  nextTrack : Nat
  nextBus : Nat
  deriving DecidableEq

namespace Mixer

def empty (channels : Nat) : Mixer := ⟨channels, 1, [], [], 0, 0⟩

def addTrack (mixer : Mixer) (track : Track) : TrackId × Mixer :=
  let id := ⟨mixer.nextTrack⟩
  (id, { mixer with
    tracks := mixer.tracks ++ [(id, track)], nextTrack := mixer.nextTrack + 1 })

def addBus (mixer : Mixer) (bus : Bus) : BusId × Mixer :=
  let id := ⟨mixer.nextBus⟩
  (id, { mixer with buses := mixer.buses ++ [(id, bus)], nextBus := mixer.nextBus + 1 })

def track? (mixer : Mixer) (id : TrackId) : Option Track := mixer.tracks.lookup id

def bus? (mixer : Mixer) (id : BusId) : Option Bus := mixer.buses.lookup id

/-- Removes a bus. Whatever fed it keeps its target, which is then missing. -/
def removeBus (mixer : Mixer) (id : BusId) : Option Bus × Mixer :=
  (mixer.bus? id, { mixer with buses := mixer.buses.filter (·.1 ≠ id) })

def editTrack (mixer : Mixer) (id : TrackId) (change : Track → Track) : Mixer :=
  { mixer with tracks := mixer.tracks.map fun (other, track) =>
      (other, if other = id then change track else track) }

def editBus (mixer : Mixer) (id : BusId) (change : Bus → Bus) : Mixer :=
  { mixer with buses := mixer.buses.map fun (other, bus) =>
      (other, if other = id then change bus else bus) }

def busIndex? (mixer : Mixer) (id : BusId) : Option Nat := mixer.buses.findIdx? (·.1 = id)

def hasBus (mixer : Mixer) (id : BusId) : Bool := mixer.buses.any (·.1 = id)

end Mixer

end Patchbay
