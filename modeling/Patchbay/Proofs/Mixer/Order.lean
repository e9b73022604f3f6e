import Patchbay.Mixer.Order
import Patchbay.Proofs.Checked
import Patchbay.Proofs.Patch.Order

/-! The render order of a mixer.

Cables lead from strip to strip. In a mixer that passes its check every cable
leads somewhere, and each part of the mixer has a place in the render order,
behind everything that feeds it.
-/

set_option autoImplicit false

namespace Patchbay

/-! ## Cables -/

/-- One way from a strip to another, from before or behind its fader. -/
structure Cable where
  source : MixerNode
  preFader : Bool
  dest : MixerNode
  gain : Sample

def OutputTarget.node : OutputTarget → MixerNode
  | .master => .master
  | .bus id => .bus id

def MixerStrip.cables (strip : MixerStrip) (source : MixerNode) : List Cable :=
  ⟨source, false, strip.output.node, 1⟩
    :: strip.sends.map fun send => ⟨source, send.preFader, .bus send.bus, send.amount⟩

theorem MixerStrip.of_mem_cables {strip : MixerStrip} {source : MixerNode} {cable : Cable}
    (member : cable ∈ strip.cables source) : cable.source = source ∧
      (cable.dest = .master ∨ ∃ bus ∈ strip.targets, cable.dest = .bus bus) := by
  rcases List.mem_cons.mp member with rfl | sent
  · refine ⟨rfl, ?_⟩
    unfold targets
    cases strip.output with
    | master => exact .inl rfl
    | bus id => exact .inr ⟨id, by simp, rfl⟩
  · obtain ⟨send, among, rfl⟩ := List.mem_map.mp sent
    exact ⟨rfl, .inr ⟨send.bus, List.mem_append_right _ (List.mem_map_of_mem among), rfl⟩⟩

namespace Mixer

variable {mixer : Mixer}

def cables (mixer : Mixer) : List Cable :=
  mixer.tracks.flatMap (fun (id, track) => track.strip.cables (.track id))
    ++ mixer.buses.flatMap fun (id, bus) => bus.cables (.bus id)

def Feeds (mixer : Mixer) (source dest : MixerNode) : Prop :=
  ∃ cable ∈ mixer.cables, cable.source = source ∧ cable.dest = dest

def Has (mixer : Mixer) : MixerNode → Prop
  | .track id => ∃ track, (id, track) ∈ mixer.tracks
  | .bus id => ∃ bus, (id, bus) ∈ mixer.buses
  | .master => True

theorem mem_cables {cable : Cable} : cable ∈ mixer.cables ↔
    (∃ id track, (id, track) ∈ mixer.tracks ∧ cable ∈ track.strip.cables (.track id)) ∨
      ∃ id bus, (id, bus) ∈ mixer.buses ∧ cable ∈ bus.cables (.bus id) := by
  simp [cables, List.mem_flatMap]

/-! ## Ids -/

/-- What a mixer comes to be by its operations. -/
inductive Built : Mixer → Prop where
  | empty (channels : Nat) : Built (empty channels)
  | addTrack {mixer : Mixer} (track : Track) : Built mixer → Built (mixer.addTrack track).2
  | addBus {mixer : Mixer} (bus : Bus) : Built mixer → Built (mixer.addBus bus).2
  | removeBus {mixer : Mixer} (id : BusId) : Built mixer → Built (mixer.removeBus id).2
  | editTrack {mixer : Mixer} (id : TrackId) (change : Track → Track) :
      Built mixer → Built (mixer.editTrack id change)
  | editBus {mixer : Mixer} (id : BusId) (change : Bus → Bus) :
      Built mixer → Built (mixer.editBus id change)
  | setVolume {mixer : Mixer} (volume : Sample) : Built mixer → Built { mixer with masterVolume := volume }

end Mixer

structure HandedOut (next : Nat) (numbers : List Nat) : Prop where
  nodup : numbers.Nodup
  below : ∀ number ∈ numbers, number < next

theorem HandedOut.concat {next : Nat} {numbers : List Nat} (handedOut : HandedOut next numbers) :
    HandedOut (next + 1) (numbers ++ [next]) := by
  have fresh : next ∉ numbers := fun member => Nat.lt_irrefl next (handedOut.below next member)
  refine ⟨List.concat_eq_append ▸ handedOut.nodup.concat fresh, forall_mem_concat.mpr ⟨?_, Nat.lt_succ_self next⟩⟩
  exact fun number member => Nat.lt_succ_of_lt (handedOut.below number member)

theorem HandedOut.sublist {next : Nat} {numbers others : List Nat} (handedOut : HandedOut next numbers)
    (rest : others.Sublist numbers) : HandedOut next others :=
  ⟨rest.nodup handedOut.nodup, fun number member => handedOut.below number (rest.subset member)⟩

namespace Mixer

variable {mixer : Mixer}

structure Numbered (mixer : Mixer) : Prop where
  tracks : HandedOut mixer.nextTrack (mixer.tracks.map (·.1.index))
  buses : HandedOut mixer.nextBus (mixer.buses.map (·.1.index))

theorem Built.numbered (built : mixer.Built) : mixer.Numbered := by
  induction built with
  | empty => exact ⟨⟨.nil, nofun⟩, ⟨.nil, nofun⟩⟩
  | addTrack track _ ih =>
    refine { ih with tracks := ?_ }
    simpa [Mixer.addTrack] using ih.tracks.concat
  | addBus bus _ ih =>
    refine { ih with buses := ?_ }
    simpa [Mixer.addBus] using ih.buses.concat
  | removeBus id _ ih => exact { ih with buses := ih.buses.sublist (List.filter_sublist.map _) }
  | editTrack id change _ ih =>
    refine { ih with tracks := ?_ }
    simpa only [Mixer.editTrack, List.map_map, Function.comp_def] using ih.tracks
  | editBus id change _ ih =>
    refine { ih with buses := ?_ }
    simpa only [Mixer.editBus, List.map_map, Function.comp_def] using ih.buses
  | setVolume volume _ ih => exact { ih with }

theorem Numbered.track_ids (numbered : mixer.Numbered) : (mixer.tracks.map (·.1)).Nodup := by
  refine List.Nodup.of_map TrackId.index ?_
  rw [List.map_map]
  exact numbered.tracks.nodup

theorem Numbered.bus_ids (numbered : mixer.Numbered) : (mixer.buses.map (·.1)).Nodup := by
  refine List.Nodup.of_map BusId.index ?_
  rw [List.map_map]
  exact numbered.buses.nodup

/-! ## Valid mixers -/

/-- What the check of a mixer is about: all targets are there, no bus feeds itself,
and every bus can be placed. -/
structure Valid (mixer : Mixer) : Prop where
  tracks : ∀ entry ∈ mixer.tracks, ∀ bus ∈ entry.2.strip.targets, mixer.hasBus bus = true
  buses : ∀ entry ∈ mixer.buses, ∀ bus ∈ entry.2.targets, bus ≠ entry.1 ∧ mixer.hasBus bus = true
  placed : mixer.busOrder.2 = []

theorem hasBus_iff {id : BusId} : mixer.hasBus id = true ↔ mixer.Has (.bus id) := by
  simp [hasBus, Has]

theorem checkTargets_eq_ok {source : MixerNode} {strip : MixerStrip} {done : Unit} :
    mixer.checkTargets source strip = .ok done ↔ ∀ bus ∈ strip.targets, mixer.hasBus bus = true := by
  have sends : (forIn strip.sends () fun send _ =>
      if mixer.hasBus send.bus = true then pure (ForInStep.yield ())
      else do
        throw (RoutingError.missingSendTarget source send.bus)
        pure (ForInStep.yield ()) : Except RoutingError Unit) = .ok done ↔
      ∀ send ∈ strip.sends, mixer.hasBus send.bus = true := forIn_unless_eq_ok
  unfold checkTargets MixerStrip.targets
  rw [List.forall_mem_append, List.forall_mem_map, ← sends]
  cases strip.output with
  | master => simp
  | bus id =>
    by_cases present : mixer.hasBus id = true
    · simp [present]
    · simp [present, throw_bind]

theorem checkBus_eq_ok {id : BusId} {bus : Bus} {done : Unit} : mixer.checkBus id bus = .ok done ↔
    ∀ target ∈ bus.targets, target ≠ id ∧ mixer.hasBus target = true := by
  have apart : (∀ target ∈ bus.targets, target ≠ id) ↔
      bus.output ≠ .bus id ∧ bus.sends.any (·.bus = id) = false := by
    unfold MixerStrip.targets
    rw [List.forall_mem_append]
    cases bus.output <;> simp
  rw [forall₂_and, apart]
  unfold checkBus
  by_cases route : bus.output = .bus id
  · simp [route, throw_bind]
  by_cases send : bus.sends.any (·.bus = id) = true
  · simp [route, send, throw_bind]
  · simp [route, send, checkTargets_eq_ok]

/-- A bus that cannot be placed is there, so the search for one to name finds it. -/
theorem stuck_head (mixer : Mixer) :
    mixer.busOrder.2.head?.bind (mixer.buses[·]?) = none ↔ mixer.busOrder.2 = [] := by
  cases stuck : mixer.busOrder.2 with
  | nil => simp
  | cons bus rest =>
    have inside : bus < mixer.buses.length := by
      have member : bus ∈ mixer.busOrder.2 := stuck ▸ List.mem_cons_self
      exact List.mem_range.mp (List.mem_filter.mp member).1
    simp [inside]

theorem checkOrder_eq_ok {done : Unit} : (match mixer.busOrder.2.head?.bind (mixer.buses[·]?) with
      | some (id, _) => throw (RoutingError.busCycle id)
      | none => return : Except RoutingError Unit) = .ok done ↔ mixer.busOrder.2 = [] := by
  rw [← mixer.stuck_head]
  cases mixer.busOrder.2.head?.bind (mixer.buses[·]?) with
  | none => simp
  | some entry => simp [throw, throwThe, MonadExceptOf.throw]

theorem checkOrder_eq_error {named : BusId} : (match mixer.busOrder.2.head?.bind (mixer.buses[·]?) with
      | some (id, _) => throw (RoutingError.busCycle id)
      | none => return : Except RoutingError Unit) = .error (.busCycle named) ↔
    ∃ bus, mixer.busOrder.2.head?.bind (mixer.buses[·]?) = some (named, bus) := by
  cases mixer.busOrder.2.head?.bind (mixer.buses[·]?) with
  | none => simp [pure, Except.pure]
  | some entry => simp [throw, throwThe, MonadExceptOf.throw, Prod.ext_iff]

theorem validate_eq_ok {done : Unit} : mixer.validate = .ok done ↔ mixer.Valid := by
  unfold validate
  simp only [bind_eq_ok]
  constructor
  · rintro ⟨_, tracks, _, buses, order⟩
    exact ⟨fun entry member => checkTargets_eq_ok.mp (forM_eq_ok.mp tracks entry member),
      fun entry member => checkBus_eq_ok.mp (forM_eq_ok.mp buses entry member), checkOrder_eq_ok.mp order⟩
  · intro valid
    exact ⟨(), forM_eq_ok.mpr fun entry member => checkTargets_eq_ok.mpr (valid.tracks entry member), (),
      forM_eq_ok.mpr fun entry member => checkBus_eq_ok.mpr (valid.buses entry member),
      checkOrder_eq_ok.mpr valid.placed⟩

end Mixer

/-! ## The order of the buses -/

namespace BusOrder

variable {feeders : Nat → List Nat} {placed : List Nat}

theorem sweep_respects (respects : RenderOrder.Respects feeders placed) (count : Nat) :
    RenderOrder.Respects feeders (sweep feeders count placed) := by
  unfold sweep
  generalize List.range count = buses
  induction buses generalizing placed with
  | nil => exact respects
  | cons bus rest ih =>
    rw [List.foldl_cons]
    split
    · rename_i ready
      refine ih (respects.concat fun feeder member => ?_)
      rw [Bool.and_eq_true, List.all_eq_true] at ready
      exact List.contains_iff_mem.mp (ready.2 feeder member)
    · exact ih respects

theorem sweeps_respects (respects : RenderOrder.Respects feeders placed) (count rounds : Nat) :
    RenderOrder.Respects feeders (sweeps feeders count rounds placed) := by
  induction rounds generalizing placed with
  | zero => exact respects
  | succ rounds ih => exact ih (sweep_respects respects count)

end BusOrder

namespace Mixer

variable {mixer : Mixer}

theorem busOrder_respects {before after : List Nat} {bus : Nat} (inside : bus < mixer.buses.length)
    (split : mixer.busOrder.1 = before ++ bus :: after) {source : Nat} (feeds : source ∈ mixer.busFeeders bus) :
    source ∈ before := by
  refine BusOrder.sweeps_respects .nil mixer.buses.length mixer.buses.length before bus after split source ?_
  simpa [Array.getD_eq_getD_getElem?, inside] using feeds

theorem Numbered.busIndex?_eq (numbered : mixer.Numbered) {index : Nat} {entry : BusId × Bus}
    (found : mixer.buses[index]? = some entry) : mixer.busIndex? entry.1 = some index :=
  findIdx?_of_nodup numbered.bus_ids found

theorem Numbered.busIndex?_iff (numbered : mixer.Numbered) {index : Nat} {entry : BusId × Bus}
    (found : mixer.buses[index]? = some entry) {id : BusId} : mixer.busIndex? id = some index ↔ id = entry.1 := by
  constructor
  · intro position
    obtain ⟨inside, same, _⟩ := List.findIdx?_eq_some_iff_getElem.mp position
    obtain rfl : mixer.buses[index] = entry := by simpa [inside] using found
    simpa [eq_comm] using same
  · rintro rfl
    exact numbered.busIndex?_eq found

theorem mem_busFeeders (numbered : mixer.Numbered) {source dest : Nat} {entry target : BusId × Bus}
    (atSource : mixer.buses[source]? = some entry) (atDest : mixer.buses[dest]? = some target) :
    source ∈ mixer.busFeeders dest ↔ target.1 ≠ entry.1 ∧ target.1 ∈ entry.2.targets := by
  have inside := (List.getElem?_eq_some_iff.mp atSource).1
  simp only [busFeeders, List.mem_filter, List.mem_range, inside, List.contains_iff_mem, busTargets, atSource,
    List.mem_filterMap, numbered.busIndex?_iff atDest, exists_eq_right, true_and, decide_eq_true_eq]
  exact and_comm

theorem Valid.mem_placed (valid : mixer.Valid) {bus : Nat} (inside : bus < mixer.buses.length) :
    bus ∈ mixer.busOrder.1 := by
  by_contra unplaced
  have stuck : bus ∈ mixer.busOrder.2 := by
    refine List.mem_filter.mpr ⟨List.mem_range.mpr inside, ?_⟩
    rwa [Bool.not_eq_true', List.contains_eq_mem, decide_eq_false_iff_not]
  rw [valid.placed] at stuck
  cases stuck

/-! ## The order of all parts -/

theorem Valid.renderOrder_eq (valid : mixer.Valid) : mixer.renderOrder = mixer.tracks.map (.track ·.1)
    ++ mixer.busOrder.1.filterMap (fun index => mixer.buses[index]?.map (.bus ·.1)) ++ [.master] := by
  simp [renderOrder, valid.placed]

theorem Valid.mem_renderOrder (valid : mixer.Valid) {node : MixerNode} :
    node ∈ mixer.renderOrder ↔ mixer.Has node := by
  simp only [valid.renderOrder_eq, List.mem_append, List.mem_map, List.mem_filterMap, Option.map_eq_some_iff,
    List.mem_singleton]
  cases node with
  | track id => simp [Has]
  | bus id =>
    simp only [Has, MixerNode.bus.injEq, reduceCtorEq, and_false, exists_false, false_or, or_false]
    constructor
    · rintro ⟨index, _, ⟨_, bus⟩, found, rfl⟩
      exact ⟨bus, List.mem_of_getElem? found⟩
    · rintro ⟨bus, member⟩
      obtain ⟨index, found⟩ := List.mem_iff_getElem?.mp member
      exact ⟨index, valid.mem_placed (List.getElem?_eq_some_iff.mp found).1, _, found, rfl⟩
  | master => simp [Has]

theorem Feeds.cases {source dest : MixerNode} (feeds : mixer.Feeds source dest) :
    (∃ entry ∈ mixer.tracks, source = .track entry.1 ∧
      (dest = .master ∨ ∃ bus ∈ entry.2.strip.targets, dest = .bus bus)) ∨
    ∃ entry ∈ mixer.buses, source = .bus entry.1 ∧ (dest = .master ∨ ∃ bus ∈ entry.2.targets, dest = .bus bus) := by
  obtain ⟨cable, member, rfl, rfl⟩ := feeds
  rcases mem_cables.mp member with ⟨id, track, among, sent⟩ | ⟨id, bus, among, sent⟩
  · exact .inl ⟨_, among, MixerStrip.of_mem_cables sent⟩
  · exact .inr ⟨_, among, MixerStrip.of_mem_cables sent⟩

theorem Feeds.has_source {source dest : MixerNode} (feeds : mixer.Feeds source dest) : mixer.Has source := by
  rcases feeds.cases with ⟨⟨_, track⟩, among, rfl, _⟩ | ⟨⟨_, bus⟩, among, rfl, _⟩
  · exact ⟨track, among⟩
  · exact ⟨bus, among⟩

theorem Feeds.has_dest (valid : mixer.Valid) {source dest : MixerNode} (feeds : mixer.Feeds source dest) :
    mixer.Has dest := by
  rcases feeds.cases with ⟨entry, among, _, rfl | ⟨bus, target, rfl⟩⟩ | ⟨entry, among, _, rfl | ⟨bus, target, rfl⟩⟩
  · trivial
  · exact hasBus_iff.mp (valid.tracks entry among bus target)
  · trivial
  · exact hasBus_iff.mp (valid.buses entry among bus target).2

end Mixer

/-- Each item comes behind all that feeds it, which is among the items or before them. -/
def InTurn {α : Type} (feeds : α → α → Prop) : (before items : List α) → Prop
  | _, [] => True
  | before, item :: rest =>
      (∀ source, feeds source item → source ∈ before) ∧ InTurn feeds (before ++ [item]) rest

theorem InTurn.append {α : Type} {feeds : α → α → Prop} {before items others : List α}
    (first : InTurn feeds before items) (second : InTurn feeds (before ++ items) others) :
    InTurn feeds before (items ++ others) := by
  induction items generalizing before with
  | nil => rwa [List.append_nil] at second
  | cons item rest ih => exact ⟨first.1, ih first.2 (by rwa [List.append_assoc])⟩

namespace Mixer

variable {mixer : Mixer}

theorem not_feeds_track {source : MixerNode} (id : TrackId) : ¬ mixer.Feeds source (.track id) := by
  intro feeds
  rcases feeds.cases with ⟨_, _, _, onward⟩ | ⟨_, _, _, onward⟩ <;> simp at onward

theorem tracks_inTurn (before : List MixerNode) (tracks : List (TrackId × Track)) :
    InTurn mixer.Feeds before (tracks.map (.track ·.1)) := by
  induction tracks generalizing before with
  | nil => trivial
  | cons track rest ih =>
    refine ⟨fun source feeds => absurd feeds (not_feeds_track _), ih _⟩

theorem buses_inTurn (numbered : mixer.Numbered) (valid : mixer.Valid) {placed pending : List Nat}
    (split : mixer.busOrder.1 = placed ++ pending) : InTurn mixer.Feeds
      (mixer.tracks.map (.track ·.1) ++ placed.filterMap fun index => mixer.buses[index]?.map (.bus ·.1))
      (pending.filterMap fun index => mixer.buses[index]?.map (.bus ·.1)) := by
  induction pending generalizing placed with
  | nil => trivial
  | cons index rest ih =>
    have later := ih (split.trans (List.append_cons placed index rest))
    rw [List.filterMap_append, ← List.append_assoc] at later
    cases found : mixer.buses[index]? with
    | none => simpa [found] using later
    | some entry =>
      simp only [List.filterMap_cons, found, Option.map_some, List.filterMap_nil] at later ⊢
      refine ⟨fun source feeds => ?_, later⟩
      -- Tracks are all there before the first bus, and a bus respects the buses that it sums.
      rcases feeds.cases with ⟨track, among, rfl, _⟩ | ⟨other, among, rfl, onward⟩
      · exact List.mem_append_left _ (List.mem_map_of_mem among)
      · have feeds : entry.1 ∈ other.2.targets := by simpa using onward
        obtain ⟨earlier, atSource⟩ := List.mem_iff_getElem?.mp among
        have apart := (valid.buses other among _ feeds).1
        have before := busOrder_respects (List.getElem?_eq_some_iff.mp found).1 split
          ((mem_busFeeders numbered atSource found).mpr ⟨apart, feeds⟩)
        exact List.mem_append_right _ (List.mem_filterMap.mpr ⟨earlier, before, by rw [atSource]; rfl⟩)

theorem renderOrder_inTurn (numbered : mixer.Numbered) (valid : mixer.Valid) :
    InTurn mixer.Feeds [] mixer.renderOrder := by
  have buses := buses_inTurn numbered valid (List.nil_append _).symm
  rw [List.filterMap_nil, List.append_nil] at buses
  rw [valid.renderOrder_eq]
  refine ((tracks_inTurn [] mixer.tracks).append buses).append ⟨fun source feeds => ?_, trivial⟩
  have placed := valid.mem_renderOrder.mpr feeds.has_source
  rw [valid.renderOrder_eq] at placed
  rcases List.mem_append.mp placed with before | last
  · exact before
  · rcases feeds.cases with ⟨_, _, rfl, _⟩ | ⟨_, _, rfl, _⟩ <;> simp at last

end Mixer

end Patchbay
