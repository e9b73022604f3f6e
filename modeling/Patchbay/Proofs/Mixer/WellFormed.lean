import Patchbay.Proofs.Mixer.Flatten
import Patchbay.Proofs.Patch.WellFormed

/-! The patch of a mixer can be compiled.

Its edges join audio ports of one channel count. They lead along the mixer's render
order, with the sources in front of it, so there is no cycle, and the only latency on
a path is that of the source at its start.
-/

set_option autoImplicit false

namespace Patchbay

theorem InTurn.idxOf_lt {α : Type} [DecidableEq α] {feeds : α → α → Prop} {before items : List α}
    (inTurn : InTurn feeds before items) {source dest : α} (member : dest ∈ items) (new : dest ∉ before)
    (fed : feeds source dest) : (before ++ items).idxOf source < (before ++ items).idxOf dest := by
  induction items generalizing before with
  | nil => cases member
  | cons item rest ih =>
    by_cases here : dest = item
    · have placed := inTurn.1 source (here ▸ fed)
      rw [List.idxOf_append_of_mem placed, List.idxOf_append_of_notMem new]
      exact Nat.lt_add_right _ (List.idxOf_lt_length_iff.mpr placed)
    · have later := ih inTurn.2 ((List.mem_cons.mp member).resolve_left here) (by simp [new, here])
      simpa only [List.append_assoc, List.singleton_append] using later

theorem Patch.Fits.of_audio {ν : Type} [Node ν] {patch : Patch ν} {edge : Edge} {channels : Nat}
    (output : ∃ spec, patch.OutputAt edge.source edge.sourcePort spec ∧ spec.type = .audio channels)
    (input : ∃ spec, patch.InputAt edge.dest edge.destPort spec ∧ spec.type = .audio channels) : patch.Fits edge := by
  obtain ⟨output, atSource, type⟩ := output
  obtain ⟨input, atDest, type'⟩ := input
  exact ⟨output, input, atSource, atDest, by rw [PortSpec.kind, PortSpec.kind, type, type'],
    fun _ => by rw [type, type']⟩

namespace Mixer

variable {ν : Type} [Node ν] {mixer : Mixer} {sources : List (TrackId × ν)}

/-- The source is for a track that is there, and its first output has the mixer's
channels. -/
structure Accepts (mixer : Mixer) (source : TrackId × ν) : Prop where
  track : mixer.Has (.track source.1)
  output : ∃ spec, (Node.outputs source.2)[0]? = some spec ∧ spec.type = .audio mixer.channels

/-! ## Ports -/

section

variable (numbered : mixer.Numbered)
include numbered

theorem patch_tap (sources : List (TrackId × ν)) {node : MixerNode} (has : mixer.Has node) (preFader : Bool) :
    ∃ spec, (mixer.patch sources).OutputAt (mixer.nodeId node)
      (if preFader then ChannelStrip.pre else ChannelStrip.post) spec ∧ spec.type = .audio mixer.channels := by
  obtain ⟨strip, _, channels, found⟩ := patch_strip numbered sources has
  rw [← channels]
  cases preFader with
  | false => exact ⟨_, ⟨_, found, rfl⟩, rfl⟩
  | true => exact ⟨_, ⟨_, found, rfl⟩, rfl⟩

theorem patch_input {node : MixerNode} (has : mixer.Has node) :
    ∃ spec, (mixer.patch sources).InputAt (mixer.nodeId node) 0 spec ∧ spec.type = .audio mixer.channels := by
  obtain ⟨strip, _, channels, found⟩ := patch_strip numbered sources has
  rw [← channels]
  exact ⟨_, ⟨_, found, rfl⟩, rfl⟩

end

theorem patch_sourceOutput (accepts : ∀ source ∈ sources, mixer.Accepts source) {entry : TrackId × NodeId}
    (member : entry ∈ mixer.sourceNodes sources) :
    ∃ spec, (mixer.patch sources).OutputAt entry.2 0 spec ∧ spec.type = .audio mixer.channels := by
  obtain ⟨node, among, found⟩ := patch_source member
  obtain ⟨spec, atPort, type⟩ := (accepts _ among).output
  exact ⟨spec, ⟨_, found, atPort⟩, type⟩

section

variable (numbered : mixer.Numbered) (valid : mixer.Valid)
include numbered valid

theorem patch_fits (accepts : ∀ source ∈ sources, mixer.Accepts source) {id : EdgeId} {edge : Edge}
    (found : (mixer.patch sources).edge? id = some edge) : (mixer.patch sources).Fits edge := by
  rcases patch_edge found with ⟨cable, member, rfl⟩ | ⟨entry, member, rfl⟩
  · have feeds : mixer.Feeds cable.source cable.dest := ⟨cable, member, rfl, rfl⟩
    exact .of_audio (patch_tap numbered sources feeds.has_source cable.preFader)
      (patch_input numbered (feeds.has_dest valid))
  · obtain ⟨node, among, _⟩ := patch_source member
    exact .of_audio (patch_sourceOutput accepts member) (patch_input numbered (accepts _ among).track)

/-! ## Paths -/

omit [Node ν] valid in
theorem sourceNodes_apart {entry : TrackId × NodeId} (member : entry ∈ mixer.sourceNodes sources) {node : MixerNode}
    (has : mixer.Has node) : entry.2 ≠ mixer.nodeId node := by
  intro same
  obtain ⟨_, _, found⟩ := patch_source member
  obtain ⟨_, _, _, found'⟩ := patch_strip numbered sources has
  rw [same, found'] at found
  cases found

omit numbered in
theorem patch_feeds (accepts : ∀ source ∈ sources, mixer.Accepts source) {source dest : NodeId}
    (feeds : (mixer.patch sources).Feeds source dest) :
    (∃ before after, mixer.Feeds before after ∧ mixer.Has before ∧ mixer.Has after ∧
      mixer.nodeId before = source ∧ mixer.nodeId after = dest) ∨
    ∃ entry ∈ mixer.sourceNodes sources, ∃ track, mixer.Has track ∧ entry.2 = source ∧ mixer.nodeId track = dest := by
  obtain ⟨id, edge, found, rfl, rfl⟩ := feeds
  rcases patch_edge found with ⟨cable, member, rfl⟩ | ⟨entry, member, rfl⟩
  · have feeds : mixer.Feeds cable.source cable.dest := ⟨cable, member, rfl, rfl⟩
    exact .inl ⟨_, _, feeds, feeds.has_source, feeds.has_dest valid, rfl, rfl⟩
  · obtain ⟨node, among, _⟩ := patch_source member
    exact .inr ⟨entry, member, _, (accepts _ among).track, rfl, rfl⟩

theorem patch_forward (accepts : ∀ source ∈ sources, mixer.Accepts source) {source dest : NodeId}
    (path : Relation.TransGen (mixer.patch sources).Feeds source dest) :
    ∃ last, mixer.Has last ∧ mixer.nodeId last = dest ∧ ∀ first, mixer.Has first → mixer.nodeId first = source →
      mixer.renderOrder.idxOf first < mixer.renderOrder.idxOf last := by
  have step : ∀ {before after}, mixer.Feeds before after → mixer.Has after →
      mixer.renderOrder.idxOf before < mixer.renderOrder.idxOf after := fun feeds has =>
    (renderOrder_inTurn numbered valid).idxOf_lt (valid.mem_renderOrder.mpr has) List.not_mem_nil feeds
  induction path with
  | single feeds =>
    rcases patch_feeds valid accepts feeds with
      ⟨before, after, cabled, has, has', rfl, rfl⟩ | ⟨entry, member, track, has, rfl, rfl⟩
    · refine ⟨after, has', rfl, fun first there same => ?_⟩
      rw [nodeId_inj numbered there has same]
      exact step cabled has'
    · exact ⟨track, has, rfl, fun first there same => absurd same.symm (sourceNodes_apart numbered member there)⟩
  | tail _ feeds ih =>
    obtain ⟨last, there, same, forward⟩ := ih
    rcases patch_feeds valid accepts feeds with
      ⟨before, after, cabled, has, has', rfl, rfl⟩ | ⟨entry, member, track, has, rfl, rfl⟩
    · obtain rfl := nodeId_inj numbered there has same
      exact ⟨after, has', rfl, fun first here at_ => (forward first here at_).trans (step cabled has')⟩
    · exact absurd same.symm (sourceNodes_apart numbered member there)

theorem patch_acyclic (accepts : ∀ source ∈ sources, mixer.Accepts source) : (mixer.patch sources).Acyclic := by
  intro id cycle
  obtain ⟨last, has, same, forward⟩ := patch_forward numbered valid accepts cycle
  exact Nat.lt_irrefl _ (forward last has same)

/-- No path is longer than the latency of the source at its start. -/
theorem patch_accumulates (accepts : ∀ source ∈ sources, mixer.Accepts source) {most : Nat}
    (within : ∀ source ∈ sources, max (Node.maxLatency source.2) (Node.latency source.2) ≤ most) {id : NodeId}
    {total : Nat} (path : (mixer.patch sources).Accumulates (mixer.patch sources).declared id total) :
    total ≤ most ∧ ∀ entry ∈ mixer.sourceNodes sources, entry.2 = id → total = 0 := by
  induction path with
  | start => exact ⟨Nat.zero_le _, fun _ _ _ => rfl⟩
  | step feeds _ ih =>
    rcases patch_feeds valid accepts feeds with
      ⟨before, after, cabled, has, has', rfl, rfl⟩ | ⟨entry, member, track, has, rfl, rfl⟩
    · obtain ⟨strip, _, _, found⟩ := patch_strip numbered sources has
      have instant : (mixer.patch sources).declared (mixer.nodeId before) = 0 := by
        rw [Patch.declared, found]
        rfl
      rw [instant]
      exact ⟨ih.1, fun entry member same => absurd same (sourceNodes_apart numbered member has')⟩
    · obtain ⟨node, among, found⟩ := patch_source member
      have latency : (mixer.patch sources).declared entry.2 = max (Node.maxLatency node) (Node.latency node) := by
        rw [Patch.declared, found]
        rfl
      rw [ih.2 entry member rfl, latency, Nat.zero_add]
      exact ⟨within _ among, fun other member same => absurd same (sourceNodes_apart numbered member has)⟩

theorem patch_wellFormed (accepts : ∀ source ∈ sources, mixer.Accepts source) {options : CompileOptions}
    (positive : 0 < options.blockSize)
    (within : ∀ source ∈ sources, max (Node.maxLatency source.2) (Node.latency source.2) ≤ options.maxCompensation) :
    (mixer.patch sources).WellFormed options := by
  obtain ⟨strip, _, _, found⟩ := patch_strip numbered sources (show mixer.Has .master from trivial)
  refine ⟨positive, ⟨_, _, found⟩, fun id edge => patch_fits numbered valid accepts,
    patch_acyclic numbered valid accepts, ⟨_, found, _, List.mem_cons_self, rfl⟩, ?_⟩
  rintro delay (⟨id, ⟨consumer, _, arrives⟩, _⟩ | ⟨edge, type, _, _, _, _, arrives⟩)
  · exact (patch_accumulates numbered valid accepts within arrives.1).1
  · exact (patch_accumulates numbered valid accepts within arrives.1).1

end

end Mixer

end Patchbay
