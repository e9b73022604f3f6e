import Mathlib.Data.List.Nodup
import Patchbay.Mixer.Flatten
import Patchbay.Proofs.Mixer.Order
import Patchbay.Proofs.Plan.Wiring

/-! The patch of a mixer.

A valid mixer with sources for its tracks becomes a patch with one strip for each
part, one edge for each cable and one for each source. The edges into a strip stand
for the cables into its part, in their order, and for a track's sources.
-/

set_option autoImplicit false

namespace Patchbay

/-! ## Keys -/

section

variable {κ α : Type} [DecidableEq κ] {entries : List (κ × α)} {key : κ} {value : α}

theorem lookup_of_nodup (distinct : (entries.map (·.1)).Nodup) (member : (key, value) ∈ entries) :
    entries.lookup key = some value := by
  induction entries with
  | nil => cases member
  | cons entry rest ih =>
    rw [List.map_cons, List.nodup_cons] at distinct
    rcases List.mem_cons.mp member with rfl | later
    · exact List.lookup_cons_self
    · have apart : key ≠ entry.1 := fun same => distinct.1 (same ▸ List.mem_map_of_mem later)
      rw [List.lookup_cons, beq_false_of_ne apart]
      exact ih distinct.2 later

theorem getElem?_idxOf_key (distinct : (entries.map (·.1)).Nodup) (member : (key, value) ∈ entries) :
    entries[(entries.map (·.1)).idxOf key]? = some (key, value) := by
  obtain ⟨index, inside, same⟩ := List.mem_iff_getElem.mp member
  have within : index < (entries.map (·.1)).length := by rwa [List.length_map]
  have place := distinct.idxOf_getElem index within
  rw [List.getElem_map, same] at place
  rw [place, List.getElem?_eq_getElem inside, same]

theorem eq_of_idxOf_key {other : κ} {value' : α} (distinct : (entries.map (·.1)).Nodup)
    (member : (key, value) ∈ entries) (member' : (other, value') ∈ entries)
    (same : (entries.map (·.1)).idxOf key = (entries.map (·.1)).idxOf other) : key = other := by
  have found := getElem?_idxOf_key distinct member
  rw [same, getElem?_idxOf_key distinct member'] at found
  cases found
  rfl

theorem map_zipIdx_key {β : Type} (number : Nat → β) (distinct : (entries.map (·.1)).Nodup) :
    (entries.zipIdx.map fun (entry, index) => (entry.1, number index)) =
      entries.map fun entry => (entry.1, number ((entries.map (·.1)).idxOf entry.1)) := by
  refine List.ext_getElem (by simp) fun index here there => ?_
  have within : index < (entries.map (·.1)).length := by simpa using there
  have place := distinct.idxOf_getElem index within
  rw [List.getElem_map] at place
  simp [place]

end

/-! ## Whole patches -/

namespace Patch

variable {ν : Type} {nodes : List ν} {edges : List Edge} {sink : Option NodeId}

/-- A patch from which nothing was removed. -/
def whole (nodes : List ν) (edges : List Edge) (sink : Option NodeId) : Patch ν :=
  ⟨(nodes.map some).toArray, (edges.map some).toArray, sink⟩

@[simp] theorem node?_whole (id : NodeId) : (whole nodes edges sink).node? id = nodes[id.index]? := by
  simp only [node?, whole, List.getElem?_toArray, List.getElem?_map]
  cases nodes[id.index]? <;> rfl

@[simp] theorem edge?_whole (id : EdgeId) : (whole nodes edges sink).edge? id = edges[id.index]? := by
  simp only [edge?, whole, List.getElem?_toArray, List.getElem?_map]
  cases edges[id.index]? <;> rfl

theorem liveEdges_whole : (whole nodes edges sink).liveEdges.map (·.2) = edges := by
  simp [liveEdges, whole, List.zipIdx_map, List.filterMap_map, Function.comp_def]

theorem edgesInto_whole (id : NodeId) (port : Nat) : ((whole nodes edges sink).edgesInto id port).map (·.2) =
    edges.filter fun edge => edge.dest = id ∧ edge.destPort = port := by
  conv_rhs => rw [← @liveEdges_whole ν nodes edges sink, List.filter_map]
  rfl

end Patch

/-! ## Strips -/

namespace Mixer

variable {mixer : Mixer}

def strip? (mixer : Mixer) : MixerNode → Option ChannelStrip
  | .track id => (mixer.track? id).map mixer.trackStrip
  | .bus id => (mixer.bus? id).map mixer.busStrip
  | .master => some mixer.masterStrip

def nodeId (mixer : Mixer) : MixerNode → NodeId
  | .track id => ⟨1 + mixer.buses.length + (mixer.tracks.map (·.1)).idxOf id⟩
  | .bus id => ⟨1 + (mixer.buses.map (·.1)).idxOf id⟩
  | .master => ⟨0⟩

def strips (mixer : Mixer) : List ChannelStrip :=
  mixer.masterStrip :: mixer.buses.map (fun bus => mixer.busStrip bus.2)
    ++ mixer.tracks.map fun track => mixer.trackStrip track.2

theorem length_strips (mixer : Mixer) : mixer.strips.length = 1 + mixer.buses.length + mixer.tracks.length := by
  simp [strips]
  omega

theorem channels_of_mem_strips {strip : ChannelStrip} (member : strip ∈ mixer.strips) :
    strip.channels = mixer.channels := by
  simp only [strips, List.mem_append, List.mem_cons, List.mem_map] at member
  rcases member with (rfl | ⟨_, _, rfl⟩) | ⟨_, _, rfl⟩ <;> rfl

theorem Has.strip (numbered : mixer.Numbered) {node : MixerNode} (has : mixer.Has node) :
    ∃ strip, mixer.strip? node = some strip ∧ mixer.strips[(mixer.nodeId node).index]? = some strip := by
  cases node with
  | track id =>
    obtain ⟨track, member⟩ := has
    have found := getElem?_idxOf_key numbered.track_ids member
    refine ⟨mixer.trackStrip track, by rw [strip?, track?, lookup_of_nodup numbered.track_ids member]; rfl, ?_⟩
    simp only [strips, nodeId]
    rw [List.getElem?_append_right (by simp; omega), List.getElem?_map, List.length_cons, List.length_map,
      show 1 + mixer.buses.length + (mixer.tracks.map (·.1)).idxOf id - (mixer.buses.length + 1) =
        (mixer.tracks.map (·.1)).idxOf id by omega, found]
    rfl
  | bus id =>
    obtain ⟨bus, member⟩ := has
    have found := getElem?_idxOf_key numbered.bus_ids member
    have inside := (List.getElem?_eq_some_iff.mp found).1
    refine ⟨mixer.busStrip bus, by rw [strip?, bus?, lookup_of_nodup numbered.bus_ids member]; rfl, ?_⟩
    simp only [strips, nodeId]
    rw [List.getElem?_append_left (by simp; omega), Nat.add_comm, List.getElem?_cons_succ, List.getElem?_map, found]
    rfl
  | master => exact ⟨_, rfl, rfl⟩

theorem nodeId_inj (numbered : mixer.Numbered) {node other : MixerNode} (has : mixer.Has node)
    (has' : mixer.Has other) (same : mixer.nodeId node = mixer.nodeId other) : node = other := by
  have low : ∀ {id bus}, (id, bus) ∈ mixer.buses → (mixer.buses.map (·.1)).idxOf id < mixer.buses.length :=
    fun member => (List.getElem?_eq_some_iff.mp (getElem?_idxOf_key numbered.bus_ids member)).1
  have same := congrArg NodeId.index same
  -- The master stands first, then all buses, then all tracks, so only parts of one kind can meet.
  cases node <;> cases other <;> simp only [nodeId] at same
  case track.track =>
    obtain ⟨_, member⟩ := has
    obtain ⟨_, member'⟩ := has'
    rw [eq_of_idxOf_key numbered.track_ids member member' (by omega)]
  case bus.bus =>
    obtain ⟨_, member⟩ := has
    obtain ⟨_, member'⟩ := has'
    rw [eq_of_idxOf_key numbered.bus_ids member member' (by omega)]
  case track.bus =>
    obtain ⟨_, member⟩ := has'
    have := low member
    omega
  case bus.track =>
    obtain ⟨_, member⟩ := has
    have := low member
    omega
  case master.master => rfl
  all_goals omega

/-! ## Edges -/

variable {ν : Type} {sources : List (TrackId × ν)}

def edgeOf (mixer : Mixer) (cable : Cable) : Edge where
  source := mixer.nodeId cable.source
  sourcePort := if cable.preFader then ChannelStrip.pre else ChannelStrip.post
  dest := mixer.nodeId cable.dest
  destPort := 0
  gain := cable.gain

def sourceNodes (mixer : Mixer) (sources : List (TrackId × ν)) : List (TrackId × NodeId) :=
  (sources.zipIdx (1 + mixer.buses.length + mixer.tracks.length)).map fun (source, index) => (source.1, ⟨index⟩)

def sourceEdge (mixer : Mixer) (source : TrackId × NodeId) : Edge where
  source := source.2
  sourcePort := 0
  dest := mixer.nodeId (.track source.1)
  destPort := 0
  gain := 1

def patch (mixer : Mixer) (sources : List (TrackId × ν)) : Patch (ChannelStrip ⊕ ν) :=
  .whole (mixer.strips.map .inl ++ sources.map (.inr ·.2))
    (mixer.cables.map mixer.edgeOf ++ (mixer.sourceNodes sources).map mixer.sourceEdge)
    (some (mixer.nodeId .master))

def busNodes (mixer : Mixer) : List (BusId × NodeId) := mixer.buses.map fun bus => (bus.1, mixer.nodeId (.bus bus.1))

def trackNodes (mixer : Mixer) : List (TrackId × NodeId) :=
  mixer.tracks.map fun track => (track.1, mixer.nodeId (.track track.1))

theorem lookup_busNodes (numbered : mixer.Numbered) {id : BusId} (has : mixer.Has (.bus id)) :
    mixer.busNodes.lookup id = some (mixer.nodeId (.bus id)) := by
  obtain ⟨bus, member⟩ := has
  refine lookup_of_nodup ?_ (List.mem_map_of_mem member)
  rw [busNodes, List.map_map]
  exact numbered.bus_ids

theorem lookup_trackNodes (numbered : mixer.Numbered) {id : TrackId} (has : mixer.Has (.track id)) :
    mixer.trackNodes.lookup id = some (mixer.nodeId (.track id)) := by
  obtain ⟨track, member⟩ := has
  refine lookup_of_nodup ?_ (List.mem_map_of_mem member)
  rw [trackNodes, List.map_map]
  exact numbered.track_ids

theorem stripEdges_eq (numbered : mixer.Numbered) {strip : MixerStrip} (source : MixerNode)
    (there : ∀ bus ∈ strip.targets, mixer.hasBus bus = true) :
    stripEdges (mixer.nodeId .master) mixer.busNodes (mixer.nodeId source) strip =
      (strip.cables source).map mixer.edgeOf := by
  have target : ∀ bus ∈ strip.targets, mixer.busNodes.lookup bus = some (mixer.nodeId (.bus bus)) :=
    fun bus member => lookup_busNodes numbered (hasBus_iff.mp (there bus member))
  have sends : ∀ send ∈ strip.sends, mixer.busNodes.lookup send.bus = some (mixer.nodeId (.bus send.bus)) :=
    fun send member => target _ (List.mem_append_right _ (List.mem_map_of_mem member))
  unfold stripEdges MixerStrip.cables
  rw [List.filterMap_congr fun send member => by rw [sends send member, Option.map_some],
    List.filterMap_eq_map', List.map_cons, List.map_map]
  cases out : strip.output with
  | master => rfl
  | bus id =>
    have found := target id (by simp [MixerStrip.targets, out])
    dsimp only
    rw [found]
    rfl

theorem flatMap_stripEdges (numbered : mixer.Numbered) {κ α : Type} (part : κ → MixerNode) (strip : α → MixerStrip)
    {entries : List (κ × α)} (there : ∀ entry ∈ entries, ∀ bus ∈ (strip entry.2).targets, mixer.hasBus bus = true) :
    (entries.zip (entries.map fun entry => (entry.1, mixer.nodeId (part entry.1)))).flatMap (fun (entry, node) =>
        stripEdges (mixer.nodeId .master) mixer.busNodes node.2 (strip entry.2)) =
      (entries.flatMap fun entry => (strip entry.2).cables (part entry.1)).map mixer.edgeOf := by
  rw [← List.map_prod_left_eq_zip, List.flatMap_map, List.map_flatMap]
  exact List.flatMap_congr fun entry member => stripEdges_eq numbered (part entry.1) (there entry member)

theorem addSources (numbered : mixer.Numbered) {nodes : List (ChannelStrip ⊕ ν)} {edges : List Edge}
    (tracks : ∀ source ∈ sources, mixer.Has (.track source.1)) :
    sources.foldlM (addSource mixer.trackNodes) (Patch.whole nodes edges none) = .ok (Patch.whole
      (nodes ++ sources.map (.inr ·.2)) (edges ++ (sources.zipIdx nodes.length).map fun (source, index) =>
        mixer.sourceEdge (source.1, ⟨index⟩)) none) := by
  induction sources generalizing nodes edges with
  | nil => simp [pure, Except.pure]
  | cons source rest ih =>
    have strip := lookup_trackNodes numbered (tracks source List.mem_cons_self)
    have added : addSource mixer.trackNodes (Patch.whole nodes edges none) source = .ok (Patch.whole
        (nodes ++ [.inr source.2]) (edges ++ [mixer.sourceEdge (source.1, ⟨nodes.length⟩)]) none) := by
      simp [addSource, strip, Patch.add, Patch.connect, Patch.whole, sourceEdge]
    rw [List.foldlM_cons, added, ok_bind, ih fun other member => tracks other (List.mem_cons_of_mem source member)]
    simp

theorem zipIdx_buses (numbered : mixer.Numbered) :
    (mixer.buses.zipIdx.map fun (bus, index) => (bus.1, (⟨1 + index⟩ : NodeId))) = mixer.busNodes :=
  map_zipIdx_key (fun index => (⟨1 + index⟩ : NodeId)) numbered.bus_ids

theorem zipIdx_tracks (numbered : mixer.Numbered) : (mixer.tracks.zipIdx.map fun (track, index) =>
    (track.1, (⟨1 + mixer.buses.length + index⟩ : NodeId))) = mixer.trackNodes :=
  map_zipIdx_key (fun index => (⟨1 + mixer.buses.length + index⟩ : NodeId)) numbered.track_ids

theorem flatMap_strips (numbered : mixer.Numbered) (valid : mixer.Valid) :
    (mixer.tracks.zip mixer.trackNodes).flatMap (fun (track, node) =>
        stripEdges (mixer.nodeId .master) mixer.busNodes node.2 track.2.strip)
      ++ (mixer.buses.zip mixer.busNodes).flatMap (fun (bus, node) =>
        stripEdges (mixer.nodeId .master) mixer.busNodes node.2 bus.2) = mixer.cables.map mixer.edgeOf := by
  rw [cables, List.map_append]
  exact congrArg₂ (fun first others : List Edge => first ++ others)
    (flatMap_stripEdges numbered .track Track.strip valid.tracks)
    (flatMap_stripEdges numbered .bus id fun entry member bus target => (valid.buses entry member bus target).2)

theorem flatten_eq (numbered : mixer.Numbered) (valid : mixer.Valid)
    (tracks : ∀ source ∈ sources, mixer.Has (.track source.1)) : mixer.flatten sources = .ok
      { patch := mixer.patch sources, master := mixer.nodeId .master, tracks := mixer.trackNodes,
        buses := mixer.busNodes } := by
  have checked : mixer.validate = .ok () := validate_eq_ok.mpr valid
  have added := @addSources _ ν sources numbered (mixer.strips.map .inl) (mixer.cables.map mixer.edgeOf) tracks
  rw [List.length_map, length_strips] at added
  unfold flatten
  rw [checked, ok_bind]
  dsimp only
  rw [zipIdx_buses numbered, zipIdx_tracks numbered]
  refine bind_eq_ok.mpr ⟨_, Eq.trans (congrArg (sources.foldlM (addSource mixer.trackNodes)) ?_) added, ?_⟩
  · rw [Patch.whole, ← flatMap_strips numbered valid, List.map_map]
    rfl
  · rw [patch, sourceNodes, List.map_map]
    rfl

/-! ## Nodes and edges -/

theorem patch_strip (numbered : mixer.Numbered) (sources : List (TrackId × ν)) {node : MixerNode}
    (has : mixer.Has node) : ∃ strip, mixer.strip? node = some strip ∧ strip.channels = mixer.channels ∧
      (mixer.patch sources).node? (mixer.nodeId node) = some (.inl strip) := by
  obtain ⟨strip, found, atNode⟩ := has.strip numbered
  refine ⟨strip, found, channels_of_mem_strips (List.mem_of_getElem? atNode), ?_⟩
  rw [patch, Patch.node?_whole, List.getElem?_append_left, List.getElem?_map, atNode, Option.map_some]
  rw [List.length_map]
  exact (List.getElem?_eq_some_iff.mp atNode).1

theorem patch_source {entry : TrackId × NodeId} (member : entry ∈ mixer.sourceNodes sources) :
    ∃ node, (entry.1, node) ∈ sources ∧ (mixer.patch sources).node? entry.2 = some (.inr node) := by
  obtain ⟨⟨source, index⟩, among, rfl⟩ := List.mem_map.mp member
  obtain ⟨above, found⟩ := List.mem_zipIdx_iff_le_and_getElem?_sub.mp among
  refine ⟨source.2, List.mem_of_getElem? found, ?_⟩
  rw [← length_strips] at found above
  rw [patch, Patch.node?_whole, List.getElem?_append_right (by simpa using above), List.length_map, List.getElem?_map,
    found, Option.map_some]

theorem patch_sourceNodes :
    (mixer.sourceNodes sources).map (fun entry => (entry.1, (mixer.patch sources).node? entry.2)) =
      sources.map fun source => (source.1, some (.inr source.2)) := by
  refine List.ext_getElem (by simp [sourceNodes]) fun index here there => ?_
  have inside : index < sources.length := by simpa using there
  simp [sourceNodes, patch, ← length_strips, inside]

theorem patch_edge {id : EdgeId} {edge : Edge} (found : (mixer.patch sources).edge? id = some edge) :
    (∃ cable ∈ mixer.cables, mixer.edgeOf cable = edge) ∨
      ∃ source ∈ mixer.sourceNodes sources, mixer.sourceEdge source = edge := by
  rw [patch, Patch.edge?_whole] at found
  simpa only [List.mem_append, List.mem_map] using List.mem_of_getElem? found

/-- The edges into a strip: the cables into its part, and a track's sources. -/
theorem patch_edgesInto (numbered : mixer.Numbered) (valid : mixer.Valid)
    (tracks : ∀ source ∈ sources, mixer.Has (.track source.1)) {node : MixerNode} (has : mixer.Has node) :
    ((mixer.patch sources).edgesInto (mixer.nodeId node) 0).map (·.2) =
      (mixer.cables.filter (·.dest = node)).map mixer.edgeOf
        ++ ((mixer.sourceNodes sources).filter fun source => .track source.1 = node).map mixer.sourceEdge := by
  have cable : ∀ cable ∈ mixer.cables, mixer.nodeId cable.dest = mixer.nodeId node ↔ cable.dest = node :=
    fun cable member => ⟨nodeId_inj numbered (Feeds.has_dest valid ⟨cable, member, rfl, rfl⟩) has,
      congrArg mixer.nodeId⟩
  have source : ∀ source ∈ mixer.sourceNodes sources,
      mixer.nodeId (.track source.1) = mixer.nodeId node ↔ .track source.1 = node := by
    intro source member
    obtain ⟨_, among, _⟩ := patch_source member
    exact ⟨nodeId_inj numbered (tracks _ among) has, congrArg mixer.nodeId⟩
  rw [patch, Patch.edgesInto_whole, List.filter_append, List.filter_map, List.filter_map]
  congr 2
  · exact List.filter_congr fun entry member => by simp [edgeOf, cable entry member]
  · exact List.filter_congr fun entry member => by simp [sourceEdge, source entry member]

end Mixer

end Patchbay
