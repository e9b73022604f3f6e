import Patchbay.Proofs.Mixer.Playback
import Patchbay.Proofs.Plan.Sizes

/-! A mixer's patch compiles, and renders its master last.

Every part of a mixer but the master feeds another part, and every source feeds its
track. What is last in render order feeds nothing, so it is the master.
-/

set_option autoImplicit false

namespace Patchbay

variable {ν : Type}

theorem Placement.last_idle [Node ν] {patch : Patch ν} {placed : List (Placed ν)} (placement : Placement patch placed)
    (fits : ∀ id edge, patch.edge? id = some edge → patch.Fits edge) {place : Placed ν}
    (last : placed[placed.length - 1]? = some place) (consumer : NodeId) : ¬ patch.Feeds place.id consumer := by
  intro feeds
  have before := feeds
  obtain ⟨edgeId, edge, found, _, rfl⟩ := feeds
  obtain ⟨_, _, _, ⟨node, present, _⟩, _⟩ := fits edgeId edge found
  obtain ⟨position, item⟩ := placement.exists_position present
  obtain ⟨earlier, less, other, there, same⟩ := placement.precedes item before
  have latest := placement.position_unique there last same
  have inside := (List.getElem?_eq_some_iff.mp item).1
  omega

def FlatMixer.Finds (flat : FlatMixer ν) (strip : MixerStrip) : Prop :=
  ∀ bus ∈ strip.targets, ∃ node, flat.busNode? bus = some node

namespace Mixer

variable {mixer : Mixer} {sources : List (TrackId × ν)}

/-! ## What feeds what -/

theorem cable_feeds {cable : Cable} (member : cable ∈ mixer.cables) :
    (mixer.patch sources).Feeds (mixer.nodeId cable.source) (mixer.nodeId cable.dest) := by
  have among := List.mem_append_left ((mixer.sourceNodes sources).map mixer.sourceEdge)
    (List.mem_map_of_mem (f := mixer.edgeOf) member)
  obtain ⟨index, found⟩ := List.mem_iff_getElem?.mp among
  exact ⟨⟨index⟩, mixer.edgeOf cable, by rw [patch, Patch.edge?_whole, found], rfl, rfl⟩

theorem source_feeds {entry : TrackId × NodeId} (member : entry ∈ mixer.sourceNodes sources) :
    (mixer.patch sources).Feeds entry.2 (mixer.nodeId (.track entry.1)) := by
  have among := List.mem_append_right (mixer.cables.map mixer.edgeOf)
    (List.mem_map_of_mem (f := mixer.sourceEdge) member)
  obtain ⟨index, found⟩ := List.mem_iff_getElem?.mp among
  exact ⟨⟨index⟩, mixer.sourceEdge entry, by rw [patch, Patch.edge?_whole, found], rfl, rfl⟩

theorem Has.onward {node : MixerNode} (has : mixer.Has node) (behind : node ≠ .master) :
    ∃ cable ∈ mixer.cables, cable.source = node := by
  cases node with
  | track id =>
    obtain ⟨track, member⟩ := has
    exact ⟨_, mem_cables.mpr (.inl ⟨id, track, member, List.mem_cons_self⟩), rfl⟩
  | bus id =>
    obtain ⟨bus, member⟩ := has
    exact ⟨_, mem_cables.mpr (.inr ⟨id, bus, member, List.mem_cons_self⟩), rfl⟩
  | master => exact absurd rfl behind

theorem exists_part (numbered : mixer.Numbered) {id : NodeId} (inside : id.index < mixer.strips.length) :
    ∃ node, mixer.Has node ∧ mixer.nodeId node = id := by
  obtain ⟨index⟩ := id
  change index < mixer.strips.length at inside
  rw [length_strips] at inside
  rcases Nat.eq_zero_or_pos index with rfl | positive
  · exact ⟨.master, trivial, rfl⟩
  by_cases early : index - 1 < mixer.buses.length
  · have place := numbered.bus_ids.idxOf_getElem (index - 1) (by rwa [List.length_map])
    rw [List.getElem_map] at place
    refine ⟨.bus (mixer.buses[index - 1]).1, ⟨_, List.getElem_mem early⟩, ?_⟩
    rw [nodeId, place, Nat.add_sub_cancel' positive]
  · have within : index - (1 + mixer.buses.length) < mixer.tracks.length := by omega
    have place := numbered.track_ids.idxOf_getElem (index - (1 + mixer.buses.length)) (by rwa [List.length_map])
    rw [List.getElem_map] at place
    refine ⟨.track (mixer.tracks[index - (1 + mixer.buses.length)]).1, ⟨_, List.getElem_mem within⟩, ?_⟩
    rw [nodeId, place, Nat.add_sub_cancel' (by omega)]

theorem patch_onward (numbered : mixer.Numbered) {id : NodeId} {node : ChannelStrip ⊕ ν}
    (present : (mixer.patch sources).node? id = some node) (behind : id ≠ mixer.nodeId .master) :
    ∃ next, (mixer.patch sources).Feeds id next := by
  by_cases strip : id.index < mixer.strips.length
  · obtain ⟨part, has, rfl⟩ := exists_part numbered strip
    obtain ⟨cable, member, rfl⟩ := has.onward fun same => behind (congrArg mixer.nodeId same)
    exact ⟨_, cable_feeds member⟩
  · rw [patch, Patch.node?_whole, List.getElem?_append_right (by simpa using strip), List.length_map,
      List.getElem?_map, Option.map_eq_some_iff] at present
    obtain ⟨source, found, _⟩ := present
    rw [length_strips] at strip found
    have member : (source, id.index) ∈ sources.zipIdx (1 + mixer.buses.length + mixer.tracks.length) :=
      List.mk_mem_zipIdx_iff_le_and_getElem?_sub.mpr ⟨Nat.not_lt.mp strip, found⟩
    exact ⟨_, source_feeds (List.mem_map_of_mem member)⟩

/-! ## The plan -/

theorem finds_targets (numbered : mixer.Numbered) {strip : MixerStrip}
    (there : ∀ bus ∈ strip.targets, mixer.hasBus bus = true) (patch : Patch (ChannelStrip ⊕ ν)) :
    FlatMixer.Finds ⟨patch, mixer.nodeId .master, mixer.trackNodes, mixer.busNodes⟩ strip :=
  fun bus member => ⟨_, lookup_busNodes numbered (hasBus_iff.mp (there bus member))⟩

/-- The plan answers with its last station, the master, behind the fader. -/
theorem master_last [Node ν] (numbered : mixer.Numbered) {options : CompileOptions}
    {placed : List (Placed (ChannelStrip ⊕ ν))} {survey : Survey} {plan : Plan (ChannelStrip ⊕ ν)}
    (compiled : CompiledFrom (mixer.patch sources) options placed survey plan) :
    plan.monitor.order.getLast? = some (mixer.nodeId .master) ∧ ∃ station,
      plan.layout.stations.getLast? = some station ∧ station.id = mixer.nodeId .master ∧
        plan.layout.sinkLane = station.base + ChannelStrip.post ∧
        plan.layout.sinkChannels = max mixer.channels 1 := by
  obtain ⟨position, port, channels, place, sinkAt, assembled⟩ := compiled.assembled
  have placement := compiled.surveyed.placement
  have inside := (List.getElem?_eq_some_iff.mp sinkAt.item).1
  obtain ⟨final, last⟩ : ∃ final, placed[placed.length - 1]? = some final :=
    ⟨_, List.getElem?_eq_getElem (by omega)⟩
  -- Every other part leads on, and the last in the order leads nowhere.
  have master : final.id = mixer.nodeId .master := by
    by_contra behind
    obtain ⟨next, feeds⟩ := patch_onward numbered (placement.present final (List.mem_of_getElem? last)) behind
    exact placement.last_idle compiled.surveyed.fits last next feeds
  have chosen := sinkAt.chosen _ rfl
  obtain rfl := placement.position_unique sinkAt.item last (chosen.trans master.symm)
  have present := placement.present place (List.mem_of_getElem? sinkAt.item)
  rw [chosen] at present
  obtain ⟨tap, atTap, audio⟩ := patch_tap numbered sources (show mixer.Has .master from trivial) false
  obtain ⟨node, present', first⟩ := atTap
  cases present.symm.trans present'
  -- The sink is the master's first audio output, and the one behind the fader comes first of all.
  have port_eq : port = ChannelStrip.post := by
    refine Nat.eq_zero_of_not_pos fun later => sinkAt.first ChannelStrip.post later tap first ?_
    rw [PortSpec.kind, audio]
    rfl
  subst port_eq
  obtain ⟨spec, atPort, type⟩ := sinkAt.audio
  cases atPort.symm.trans first
  cases type.symm.trans audio
  obtain ⟨station, found, stationed⟩ := (Layout.layStations_stations compiled.surveyed).stationed sinkAt.item
  rw [← assembled.stations] at found
  refine ⟨?_, station, ?_, stationed.id.trans chosen, ?_, assembled.sinkChannels⟩
  · rw [assembled.order, List.getLast?_eq_getElem?, List.length_map, List.getElem?_map, sinkAt.item, Option.map_some,
      chosen]
  · rw [List.getLast?_eq_getElem?, assembled.stations, Layout.length_layStations, ← assembled.stations, found]
  · rw [assembled.sinkLane, found]
    rfl

end Mixer

/-- A valid mixer can always be flattened, with every target found. Its patch, if no
source is later than a delay may be, is never refused, and has a plan exactly if its
size is representable. The plan renders the master last and answers with it. -/
theorem flattened_compiles [Node ν] {mixer : Mixer} {sources : List (TrackId × ν)} {options : CompileOptions}
    (built : mixer.Built) (checked : mixer.validate = .ok ()) (accepts : ∀ source ∈ sources, mixer.Accepts source)
    (within : ∀ source ∈ sources, Node.maxLatency source.2 ≤ options.maxCompensation ∧
      Node.latency source.2 ≤ options.maxCompensation) (positive : 0 < options.blockSize) :
    ∃ flat, mixer.flatten sources = .ok flat ∧
      ((∀ entry ∈ mixer.tracks, flat.Finds entry.2.strip) ∧ ∀ entry ∈ mixer.buses, flat.Finds entry.2) ∧
      (∀ error, compile flat.patch options ≠ .ok (.error error)) ∧
      ((∃ plan, compile flat.patch options = .ok (.ok plan)) ↔ flat.patch.Representable options) ∧
      ∀ plan, compile flat.patch options = .ok (.ok plan) →
        plan.monitor.order.getLast? = some flat.master ∧ ∃ station,
          plan.layout.stations.getLast? = some station ∧ station.id = flat.master ∧
            plan.layout.sinkLane = station.base + ChannelStrip.post ∧
            plan.layout.sinkChannels = max mixer.channels 1 := by
  have numbered := built.numbered
  have valid := Mixer.validate_eq_ok.mp checked
  have wellFormed := Mixer.patch_wellFormed numbered valid accepts positive fun source member =>
    max_le (within source member).1 (within source member).2
  refine ⟨_, Mixer.flatten_eq numbered valid fun source member => (accepts source member).track, ⟨?_, ?_⟩,
    wellFormed.not_refused, ?_, ?_⟩
  · exact fun entry member => Mixer.finds_targets numbered (valid.tracks entry member) _
  · exact fun entry member => Mixer.finds_targets numbered (fun bus target => (valid.buses entry member bus target).2) _
  · rw [compile_eq_ok_iff]
    exact and_iff_right wellFormed
  · intro plan compiled
    obtain ⟨placed, survey, origin⟩ := compile_plan compiled
    exact Mixer.master_last numbered origin

theorem desk_compiles : ∃ (flat : FlatMixer Constant) (plan : Plan (ChannelStrip ⊕ Constant)),
    desk.flatten deskSources = .ok flat ∧ flat.patch.Representable { blockSize := 2 } ∧
      compile flat.patch { blockSize := 2 } = .ok (.ok plan) ∧ plan.monitor.order.getLast? = some flat.master := by
  obtain ⟨flat, flattened, _, _, compiles, last⟩ := @flattened_compiles _ _ desk deskSources { blockSize := 2 }
    desk_built desk_validates desk_accepts (fun _ _ => ⟨Nat.zero_le _, Nat.zero_le _⟩) (by decide)
  have laid := Mixer.flatten_eq desk_built.numbered (Mixer.validate_eq_ok.mp desk_validates)
    fun source member => (desk_accepts source member).track
  cases flattened.symm.trans laid
  obtain ⟨plan, _, _, compiled, _⟩ := desk_renders
  exact ⟨_, plan, flattened, compiles.mp ⟨plan, compiled⟩, compiled, (last plan compiled).1⟩

/-- A mixer with nothing but its master is not compiled for blocks that cannot be
addressed. -/
theorem bare_too_long : (Mixer.empty 1).Built ∧ (Mixer.empty 1).validate = .ok () ∧
    ∃ flat, (Mixer.empty 1).flatten ([] : List (TrackId × Constant)) = .ok flat ∧
      compile flat.patch { blockSize := 2 ^ 62 } = .error .storage :=
  ⟨.empty 1, by decide +kernel, by decide +kernel⟩

end Patchbay
