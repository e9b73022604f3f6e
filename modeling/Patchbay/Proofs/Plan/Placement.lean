import Patchbay.Proofs.Plan.Check

/-! Nodes at their render positions.

Each node has one position, behind the positions of all that feed it. The sink
is picked from the placed nodes.
-/

set_option autoImplicit false

namespace Patchbay

variable {ν : Type}

structure Placement (patch : Patch ν) (placed : List (Placed ν)) : Prop where
  nodup : (placed.map (·.id)).Nodup
  present : ∀ place ∈ placed, patch.node? place.id = some place.node
  complete : ∀ {id node}, patch.node? id = some node → ⟨id, node⟩ ∈ placed
  precedes : ∀ {position : Nat} {place feeder}, placed[position]? = some place →
    patch.Feeds feeder place.id →
      ∃ earlier < position, ∃ other, placed[earlier]? = some other ∧ other.id = feeder

namespace Placement

variable {patch : Patch ν} {placed : List (Placed ν)}

theorem getElem?_place {order : List Nat} (ordered : patch.Ordered order) (position : Nat) :
    (patch.place order)[position]? =
      order[position]?.bind fun slot => (patch.node? ⟨slot⟩).map (Placed.mk ⟨slot⟩) := by
  have live : ∀ slot ∈ order, ∃ node, patch.node? ⟨slot⟩ = some node := fun slot =>
    ordered.mem_iff.mp
  clear ordered
  unfold Patch.place
  induction order generalizing position with
  | nil => simp
  | cons slot rest ih =>
    obtain ⟨node, found⟩ := live slot List.mem_cons_self
    have later := fun position => ih position fun other member => live other (List.mem_cons_of_mem _ member)
    cases position with
    | zero => simp [found]
    | succ position => simpa [found] using later position

theorem ofOrder {order : List Nat} (ordered : patch.Ordered order) :
    Placement patch (patch.place order) := by
  -- An order names live slots only, so it is position by position that of the places.
  have itemAt : ∀ {position : Nat} {place}, (patch.place order)[position]? = some place ↔
      order[position]? = some place.id.index ∧ patch.node? place.id = some place.node := by
    intro position place
    rw [getElem?_place ordered]
    simp only [Option.bind_eq_some_iff, Option.map_eq_some_iff]
    constructor
    · rintro ⟨slot, item, node, found, rfl⟩
      exact ⟨item, found⟩
    · rintro ⟨item, found⟩
      exact ⟨_, item, _, found, rfl⟩
  refine ⟨?_, ?_, ?_, ?_⟩
  · rw [List.Nodup, List.pairwise_map, List.pairwise_iff_getElem]
    intro first second here there less same
    have atFirst := itemAt.mp (List.getElem?_eq_getElem here)
    have atSecond := itemAt.mp (List.getElem?_eq_getElem there)
    rw [same] at atFirst
    have := ordered.position_unique atFirst.1 atSecond.1
    omega
  · intro place member
    obtain ⟨position, item⟩ := List.mem_iff_getElem?.mp member
    exact (itemAt.mp item).2
  · intro id node found
    obtain ⟨position, item⟩ := List.mem_iff_getElem?.mp (ordered.mem_iff.mpr ⟨node, found⟩)
    exact List.mem_iff_getElem?.mpr ⟨position, itemAt.mpr ⟨item, found⟩⟩
  · intro position place feeder item feeds
    obtain ⟨earlier, less, before⟩ := ordered.precedes (itemAt.mp item).1 feeds
    have member : feeder.index ∈ order := List.mem_of_getElem? before
    obtain ⟨node, found⟩ := ordered.mem_iff.mp member
    exact ⟨earlier, less, ⟨feeder, node⟩, itemAt.mpr ⟨before, found⟩, rfl⟩

section

variable (placement : Placement patch placed)
include placement

theorem position_unique {first second : Nat} {place other : Placed ν}
    (here : placed[first]? = some place) (there : placed[second]? = some other)
    (same : place.id = other.id) : first = second := by
  have atFirst : (placed.map (·.id))[first]? = some place.id := by simp [here]
  have atSecond : (placed.map (·.id))[second]? = some place.id := by simp [there, same]
  obtain ⟨inside, item⟩ := List.getElem?_eq_some_iff.mp atFirst
  obtain ⟨inside', item'⟩ := List.getElem?_eq_some_iff.mp atSecond
  exact (List.Nodup.getElem_inj_iff placement.nodup).mp (item.trans item'.symm)

theorem exists_position {id : NodeId} {node : ν} (found : patch.node? id = some node) :
    ∃ position : Nat, placed[position]? = some ⟨id, node⟩ :=
  List.mem_iff_getElem?.mp (placement.complete found)

theorem findIdx?_eq {position : Nat} {place : Placed ν} (item : placed[position]? = some place) :
    placed.findIdx? (·.id = place.id) = some position :=
  findIdx?_of_nodup placement.nodup item

end

end Placement

/-! ## The sink -/

variable [Node ν]

theorem firstAudio_cases (node : ν) :
    (firstAudio node = none ∧ ¬ HasAudioOutput node) ∨
    ∃ index port channels, firstAudio node = some (index, max channels 1) ∧
      (Node.outputs node)[index]? = some port ∧ port.type = .audio channels ∧
      ∀ earlier < index, ∀ other, (Node.outputs node)[earlier]? = some other → other.kind ≠ .audio := by
  cases answer : firstAudio node with
  | none =>
    refine .inl ⟨rfl, ?_⟩
    rintro ⟨port, member, audio⟩
    obtain ⟨index, item⟩ := List.mem_iff_getElem?.mp member
    have skipped := findSome?_zipIdx_eq_none answer item
    cases type : port.type <;> simp_all [PortSpec.kind, PortType.kind]
  | some sink =>
    obtain ⟨index, port, item, chosen, skipped⟩ := findSome?_zipIdx_eq_some answer
    cases type : port.type <;> simp only [type, reduceCtorEq, Option.some.injEq] at chosen
    rename_i channels
    refine .inr ⟨index, port, channels, by rw [chosen], item, type, ?_⟩
    intro earlier less other found
    have silent := skipped earlier less other found
    cases otherType : other.type <;> simp_all [PortSpec.kind, PortType.kind]

/-- What a plan answers with: the first audio output of the chosen node, or of the
last node in render order that has one. -/
structure SinkAt (patch : Patch ν) (placed : List (Placed ν)) (position port channels : Nat)
    (place : Placed ν) : Prop where
  item : placed[position]? = some place
  audio : ∃ spec, (Node.outputs place.node)[port]? = some spec ∧ spec.type = .audio channels
  first : ∀ earlier < port, ∀ other, (Node.outputs place.node)[earlier]? = some other →
    other.kind ≠ .audio
  chosen : ∀ id, patch.sink = some id → place.id = id
  last : patch.sink = none → ∀ later > position, ∀ other, placed[later]? = some other →
    ¬ HasAudioOutput other.node

theorem hasAudioOutput_of_getElem? {node : ν} {index channels : Nat} {port : PortSpec}
    (item : (Node.outputs node)[index]? = some port) (type : port.type = .audio channels) : HasAudioOutput node := by
  refine ⟨port, List.mem_of_getElem? item, ?_⟩
  rw [PortSpec.kind, type]
  rfl

theorem SinkAt.hasAudioOutput {patch : Patch ν} {placed : List (Placed ν)} {position port channels : Nat}
    {place : Placed ν} (sinkAt : SinkAt patch placed position port channels place) : HasAudioOutput place.node := by
  obtain ⟨spec, atPort, type⟩ := sinkAt.audio
  exact hasAudioOutput_of_getElem? atPort type

theorem SinkAt.port_unique {patch other : Patch ν} {placed places : List (Placed ν)}
    {position port channels position' port' channels' : Nat} {place place' : Placed ν}
    (here : SinkAt patch placed position port channels place)
    (there : SinkAt other places position' port' channels' place') (same : place'.node = place.node) :
    port = port' := by
  obtain ⟨spec, atPort, type⟩ := here.audio
  obtain ⟨spec', atPort', type'⟩ := there.audio
  have audio : spec.kind = .audio := by
    rw [PortSpec.kind, type]
    rfl
  have audio' : spec'.kind = .audio := by
    rw [PortSpec.kind, type']
    rfl
  rw [same] at atPort'
  rcases Nat.lt_trichotomy port port' with less | equal | more
  · exact absurd audio (there.first port less spec (same ▸ atPort))
  · exact equal
  · exact absurd audio' (here.first port' more spec' atPort')

theorem SinkAt.unique {patch : Patch ν} {placed : List (Placed ν)} (placement : Placement patch placed)
    {position port channels position' port' channels' : Nat} {place place' : Placed ν}
    (here : SinkAt patch placed position port channels place)
    (there : SinkAt patch placed position' port' channels' place') : position = position' ∧ port = port' := by
  have positions : position = position' := by
    cases sink : patch.sink with
    | some id =>
      exact placement.position_unique here.item there.item ((here.chosen id sink).trans (there.chosen id sink).symm)
    | none =>
      rcases Nat.lt_trichotomy position position' with less | equal | more
      · exact absurd there.hasAudioOutput (here.last sink position' less place' there.item)
      · exact equal
      · exact absurd here.hasAudioOutput (there.last sink position more place here.item)
  refine ⟨positions, here.port_unique there ?_⟩
  have again := there.item
  rw [← positions, here.item] at again
  cases again
  rfl

section

variable {patch : Patch ν} {placed : List (Placed ν)} (options : CompileOptions) (placement : Placement patch placed)
include placement

theorem selectSink_some {id : NodeId} (chosen : patch.sink = some id) :
    (∃ position port channels place,
      selectSink (some id) placed = .ok (position, port, max channels 1) ∧
        SinkAt patch placed position port channels place ∧ patch.HasSink) ∨
    ∃ error, selectSink (some id) placed = .error error ∧ patch.Defect options error ∧
      ¬ patch.HasSink := by
  simp only [selectSink, Patch.HasSink, chosen]
  -- The node is found among the places exactly if it is in the patch.
  split
  · rename_i place position found
    have item := List.mk_mem_zipIdx_iff_getElem?.mp (List.mem_of_find?_eq_some found)
    obtain rfl : place.id = id := by simpa using List.find?_some found
    have present := placement.present place (List.mem_of_getElem? item)
    rcases firstAudio_cases place.node with
      ⟨none, silent⟩ | ⟨index, port, channels, some, atIndex, type, first⟩
    · refine .inr ⟨.invalidSink place.id, by rw [none], ⟨chosen, ?_⟩, ?_⟩
      · intro node again
        rw [present] at again
        cases again
        exact silent
      · rintro ⟨node, again, audio⟩
        rw [present] at again
        cases again
        exact silent audio
    · refine .inl ⟨position, index, channels, place, by rw [some],
        ⟨item, ⟨port, atIndex, type⟩, first, ?_, ?_⟩, place.node, present, hasAudioOutput_of_getElem? atIndex type⟩
      · intro id same
        rw [chosen] at same
        exact Option.some.inj same
      · intro none
        rw [chosen] at none
        cases none
  · rename_i found
    have absent : ∀ node, patch.node? id ≠ some node := by
      intro node present
      obtain ⟨position, item⟩ := placement.exists_position present
      have := List.find?_eq_none.mp found (⟨id, node⟩, position)
        (List.mk_mem_zipIdx_iff_getElem?.mpr item)
      simp at this
    refine .inr ⟨_, rfl, ⟨chosen, fun node present => absurd present (absent node)⟩, ?_⟩
    rintro ⟨node, present, _⟩
    exact absent node present

theorem selectSink_none (unchosen : patch.sink = none) :
    (∃ position port channels place,
      selectSink none placed = .ok (position, port, max channels 1) ∧
        SinkAt patch placed position port channels place ∧ patch.HasSink) ∨
    ∃ error, selectSink none placed = .error error ∧ patch.Defect options error ∧
      ¬ patch.HasSink := by
  simp only [selectSink, Patch.HasSink, unchosen]
  split
  · rename_i sink found
    -- Searched from the end, the first node with an audio output is the last one that has any.
    obtain ⟨position, place, item, picked, skipped⟩ := findSome?_zipIdx_reverse_eq_some found
    rcases firstAudio_cases place.node with
      ⟨none, _⟩ | ⟨index, port, channels, some, atIndex, type, first⟩
    · simp [none] at picked
    obtain rfl : (position, index, max channels 1) = sink := by simpa [some] using picked
    refine .inl ⟨position, index, channels, place, rfl,
      ⟨item, ⟨port, atIndex, type⟩, first, ?_, ?_⟩,
      place.id, place.node, placement.present place (List.mem_of_getElem? item),
      hasAudioOutput_of_getElem? atIndex type⟩
    · intro id same
      rw [unchosen] at same
      cases same
    · intro _ later beyond other otherItem
      rcases firstAudio_cases other.node with ⟨_, silent⟩ | ⟨_, _, _, some, _⟩
      · exact silent
      · have := skipped later beyond other otherItem
        simp [some] at this
  · rename_i found
    have silent : ∀ id node, patch.node? id = some node → ¬ HasAudioOutput node := by
      intro id node present
      obtain ⟨position, item⟩ := placement.exists_position present
      have skipped := List.findSome?_eq_none_iff.mp found (⟨id, node⟩, position)
        (List.mem_reverse.mpr (List.mk_mem_zipIdx_iff_getElem?.mpr item))
      rcases firstAudio_cases node with ⟨_, silent⟩ | ⟨_, _, _, some, _⟩
      · exact silent
      · simp [some] at skipped
    refine .inr ⟨_, rfl, ⟨unchosen, silent⟩, ?_⟩
    rintro ⟨id, node, present, audio⟩
    exact silent id node present audio

theorem selectSink_cases :
    (∃ position port channels place,
      selectSink patch.sink placed = .ok (position, port, max channels 1) ∧
        SinkAt patch placed position port channels place ∧ patch.HasSink) ∨
    ∃ error, selectSink patch.sink placed = .error error ∧ patch.Defect options error ∧
      ¬ patch.HasSink := by
  cases chosen : patch.sink with
  | some id => exact selectSink_some options placement chosen
  | none => exact selectSink_none options placement chosen

end

end Patchbay
