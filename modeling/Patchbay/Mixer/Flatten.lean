import Patchbay.Mixer.Order
import Patchbay.Patch.Basic
import Patchbay.Node.Builtin

/-! Flattening a mixer into a patch of channel strips.

The master is the first node, then come the buses, then the tracks, then the
sources. Each strip feeds its output target behind the fader; each send feeds
its bus at its amount, before or behind the fader. A muted track, and one that
is not soloed while another is, becomes a muted strip.
-/

set_option autoImplicit false

namespace Patchbay

structure FlatMixer (ν : Type) where
  patch : Patch (ChannelStrip ⊕ ν)
  master : NodeId
  tracks : List (TrackId × NodeId)
  buses : List (BusId × NodeId)

namespace FlatMixer

variable {ν : Type}

def trackNode? (flat : FlatMixer ν) (id : TrackId) : Option NodeId := flat.tracks.lookup id

def busNode? (flat : FlatMixer ν) (id : BusId) : Option NodeId := flat.buses.lookup id

end FlatMixer

namespace Mixer

variable {ν : Type}

def channelStrip (mixer : Mixer) (strip : MixerStrip) (mute : Bool) : ChannelStrip :=
  ({ name := strip.name, channels := mixer.channels, volume := strip.volume, mute } :
    ChannelStrip).withPan strip.pan

def masterStrip (mixer : Mixer) : ChannelStrip :=
  { name := "master", channels := mixer.channels, volume := mixer.masterVolume }

def anySolo (mixer : Mixer) : Bool := mixer.tracks.any (·.2.solo)

/-- A track is silent if it is muted, or not soloed while another track is. -/
def isMuted (mixer : Mixer) (track : Track) : Bool :=
  track.strip.mute || (mixer.anySolo && !track.solo)

def trackStrip (mixer : Mixer) (track : Track) : ChannelStrip :=
  mixer.channelStrip track.strip (mixer.isMuted track)

def busStrip (mixer : Mixer) (bus : Bus) : ChannelStrip := mixer.channelStrip bus bus.mute

/-- The edges out of a strip: its output at unity, then its sends. A send to a bus
that does not exist has no edge. -/
def stripEdges (master : NodeId) (buses : List (BusId × NodeId)) (node : NodeId)
    (strip : MixerStrip) : List Edge :=
  let target :=
    match strip.output with
    | .master => some master
    | .bus id => buses.lookup id
  (target.toList.map fun dest =>
    { source := node, sourcePort := ChannelStrip.post, dest, destPort := 0, gain := 1 })
  ++ strip.sends.filterMap fun send =>
    (buses.lookup send.bus).map fun dest => {
      source := node
      sourcePort := if send.preFader then ChannelStrip.pre else ChannelStrip.post
      dest
      destPort := 0
      gain := send.amount }

def addSource (tracks : List (TrackId × NodeId)) (patch : Patch (ChannelStrip ⊕ ν))
    (source : TrackId × ν) : Except RoutingError (Patch (ChannelStrip ⊕ ν)) :=
  match tracks.lookup source.1 with
  | none => .error (.missingTrack source.1)
  | some strip =>
      let (node, patch) := patch.add (.inr source.2)
      .ok (patch.connect
        { source := node, sourcePort := 0, dest := strip, destPort := 0, gain := 1 }).2

def flatten (mixer : Mixer) (sources : List (TrackId × ν)) :
    Except RoutingError (FlatMixer ν) := do
  mixer.validate
  let strips := mixer.masterStrip :: mixer.buses.map (fun bus => mixer.busStrip bus.2)
    ++ mixer.tracks.map fun track => mixer.trackStrip track.2
  let master : NodeId := ⟨0⟩
  let buses := mixer.buses.zipIdx.map fun (bus, index) => (bus.1, (⟨1 + index⟩ : NodeId))
  let tracks := mixer.tracks.zipIdx.map fun (track, index) =>
    (track.1, (⟨1 + mixer.buses.length + index⟩ : NodeId))
  let edges :=
    (mixer.tracks.zip tracks).flatMap (fun (track, node) =>
      stripEdges master buses node.2 track.2.strip)
    ++ (mixer.buses.zip buses).flatMap fun (bus, node) => stripEdges master buses node.2 bus.2
  let patch : Patch (ChannelStrip ⊕ ν) := {
    nodes := (strips.map (some ∘ Sum.inl)).toArray
    edges := (edges.map some).toArray
    sink := none }
  let patch ← sources.foldlM (addSource tracks) patch
  return { patch := patch.setSink master, master, tracks, buses }

end Mixer

end Patchbay
