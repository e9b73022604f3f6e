import Patchbay.Mixer.Basic

/-! Checking a mixer's routing, and the order in which its parts are heard.

A bus can be placed once every bus that feeds it is placed. Buses are swept in
the order in which they were added until a sweep places none; what is left then
lies on a cycle or behind one.
-/

set_option autoImplicit false

namespace Patchbay

inductive RoutingError where
  | selfRoute (bus : BusId)
  | selfSend (bus : BusId)
  | missingSendTarget (source : MixerNode) (bus : BusId)
  | missingOutputTarget (source : MixerNode) (bus : BusId)
  | busCycle (bus : BusId)
  | missingTrack (track : TrackId)
  deriving DecidableEq

def RoutingError.message : RoutingError → String
  | .selfRoute bus => bus.text ++ " routes to itself"
  | .selfSend bus => bus.text ++ " sends to itself"
  | .missingSendTarget source bus => "send from " ++ source.text ++ " targets missing " ++ bus.text
  | .missingOutputTarget source bus =>
      "output of " ++ source.text ++ " targets missing " ++ bus.text
  | .busCycle bus => "bus cycle detected through " ++ bus.text
  | .missingTrack track => "no such track " ++ track.text

namespace BusOrder

/-- Places every bus below `count` whose feeders are placed, in one sweep. A bus
placed in the sweep counts for those after it. -/
def sweep (feeders : Nat → List Nat) (count : Nat) (placed : List Nat) : List Nat :=
  (List.range count).foldl (fun placed bus =>
    if !placed.contains bus && (feeders bus).all placed.contains then placed ++ [bus]
    else placed) placed

def sweeps (feeders : Nat → List Nat) (count : Nat) : (rounds : Nat) → List Nat → List Nat
  | 0, placed => placed
  | rounds + 1, placed => sweeps feeders count rounds (sweep feeders count placed)

end BusOrder

namespace Mixer

def busTargets (mixer : Mixer) (index : Nat) : List Nat :=
  match mixer.buses[index]? with
  | some (id, bus) => (bus.targets.filter (· ≠ id)).filterMap mixer.busIndex?
  | none => []

def busFeeders (mixer : Mixer) (index : Nat) : List Nat :=
  (List.range mixer.buses.length).filter fun source => (mixer.busTargets source).contains index

/-- The buses in the order in which they can be placed, and those that cannot.
Every sweep but the last places a bus, so as many sweeps as buses suffice. -/
def busOrder (mixer : Mixer) : List Nat × List Nat :=
  let count := mixer.buses.length
  let table := (Array.range count).map mixer.busFeeders
  let placed := BusOrder.sweeps (fun bus => table.getD bus []) count count []
  (placed, (List.range count).filter (!placed.contains ·))

def checkTargets (mixer : Mixer) (source : MixerNode) (strip : MixerStrip) :
    Except RoutingError Unit := do
  match strip.output with
  | .bus bus => unless mixer.hasBus bus do throw (.missingOutputTarget source bus)
  | .master => pure ()
  for send in strip.sends do
    unless mixer.hasBus send.bus do throw (.missingSendTarget source send.bus)

def checkBus (mixer : Mixer) (id : BusId) (bus : Bus) : Except RoutingError Unit := do
  if bus.output = .bus id then throw (.selfRoute id)
  if bus.sends.any (·.bus = id) then throw (.selfSend id)
  mixer.checkTargets (.bus id) bus

def validate (mixer : Mixer) : Except RoutingError Unit := do
  mixer.tracks.forM fun (id, track) => mixer.checkTargets (.track id) track.strip
  mixer.buses.forM fun (id, bus) => mixer.checkBus id bus
  match mixer.busOrder.2.head?.bind (mixer.buses[·]?) with
  | some (id, _) => throw (.busCycle id)
  | none => return

/-- Tracks, then buses, each behind what feeds it, then the master. Buses that
cannot be placed come last among the buses. -/
def renderOrder (mixer : Mixer) : List MixerNode :=
  let (placed, stuck) := mixer.busOrder
  mixer.tracks.map (.track ·.1)
    ++ (placed ++ stuck).filterMap (fun index => mixer.buses[index]?.map (.bus ·.1))
    ++ [.master]

end Mixer

end Patchbay
