import Patchbay.Proofs.Plan.Delays
import Patchbay.Proofs.Render.Losses

/-! What the ports of nodes let go.

The events that a port lets go in a block can be told from what its node emitted.
As long as no list overflows, they are what its lane carries, and what comes out of
the lines behind it is the same events, later.
-/

set_option autoImplicit false

namespace Patchbay

variable {ν : Type} {start size wait : Nat} {blocks : List (Block ν)} {block : Block ν}
  {position port : Nat}

/-- The events that leave an output port in a block after some others: those that
have waited, while the node runs. -/
def Block.departing (start size wait : Nat) (sofar : List (Block ν)) (block : Block ν) (position port : Nat) :
    List (Event Message) :=
  if block.after.monitor.isFailedAt position then []
  else arriving start size wait (emissions (sofar ++ [block]) position port) sofar.length

def departures (start size wait : Nat) (blocks : List (Block ν)) (position port : Nat) :
    List (List (Event Message)) :=
  blocks.zipIdx.map fun (block, index) => block.departing start size wait (blocks.take index) position port

@[simp] theorem length_departures : (departures start size wait blocks position port).length = blocks.length := by
  simp [departures]

@[simp] theorem length_emissions : (emissions blocks position port).length = blocks.length :=
  List.length_map ..

theorem departures_concat : departures start size wait (blocks ++ [block]) position port =
    departures start size wait blocks position port ++
      [block.departing start size wait blocks position port] := by
  unfold departures
  rw [List.zipIdx_append, List.map_append]
  congr 1
  · refine List.map_congr_left fun (other, index) member => ?_
    have inside : index < blocks.length :=
      (List.getElem?_eq_some_iff.mp (List.mem_zipIdx_iff_getElem?.mp member)).1
    dsimp only
    rw [List.take_append_of_le_length (by omega)]
  · simp

theorem departures_starts {sofar : List (Block ν)} (extends_ : sofar <+: blocks) :
    departures start size wait sofar position port <+: departures start size wait blocks position port := by
  obtain ⟨more, rfl⟩ := extends_
  induction more using List.reverseRecOn with
  | nil => rw [List.append_nil]
  | append_singleton more block ih =>
    rw [← List.append_assoc, departures_concat]
    exact ih.trans (List.prefix_append _ _)

theorem mem_departures {events : List (Event Message)} :
    events ∈ departures start size wait blocks position port ↔ ∃ sofar block,
      sofar ++ [block] <+: blocks ∧ events = block.departing start size wait sofar position port := by
  induction blocks using List.reverseRecOn with
  | nil => simp [departures]
  | append_singleton blocks block ih =>
    rw [departures_concat, List.mem_append, List.mem_singleton, ih]
    constructor
    · rintro (⟨sofar, other, extends_, same⟩ | same)
      · exact ⟨sofar, other, extends_.trans (List.prefix_append _ _), same⟩
      · exact ⟨blocks, block, List.prefix_refl _, same⟩
    · rintro ⟨sofar, other, extends_, same⟩
      rcases List.prefix_concat_iff.mp extends_ with whole | shorter
      · obtain ⟨rfl, last⟩ := List.append_inj' whole rfl
        cases last
        exact .inr same
      · exact .inl ⟨sofar, other, shorter, same⟩

theorem Block.departing_inside {sofar : List (Block ν)} :
    ∀ event ∈ block.departing start size wait sofar position port, event.frame.toNat < size := by
  intro event member
  unfold departing at member
  split at member
  · cases member
  · exact frame_lt_of_mem_arriving member

theorem departures_inside : Inside size (departures start size wait blocks position port) := by
  intro events member event among
  obtain ⟨_, _, _, rfl⟩ := mem_departures.mp member
  exact Block.departing_inside event among

theorem arriving_departures {sofar : List (Block ν)} (extends_ : sofar ++ [block] <+: blocks) (delay : Nat) :
    arriving start size delay (departures start size wait blocks position port) sofar.length =
      arriving start size delay (departures start size wait (sofar ++ [block]) position port) sofar.length :=
  arriving_starts (departures_starts extends_) (by simp)

theorem arriving_zero_departures {sofar : List (Block ν)} (extends_ : sofar ++ [block] <+: blocks) :
    arriving start size 0 (departures start size wait blocks position port) sofar.length =
      block.departing start size wait sofar position port := by
  have inside : Inside size (departures start size wait (sofar ++ [block]) position port) := departures_inside
  rw [arriving_departures extends_]
  rw [departures_concat] at inside ⊢
  have newest := @arriving_zero _ start _ _ _ inside
  rwa [length_departures] at newest

/-- While its node runs, a port lets go all that has waited. -/
theorem departures_eq (alive : ∀ block ∈ blocks, block.after.monitor.isFailedAt position = false) :
    departures start size wait blocks position port =
      (List.range blocks.length).map (arriving start size wait (emissions blocks position port)) := by
  unfold departures
  rw [List.range_eq_range', ← List.zipIdx_map_snd, List.map_map]
  refine List.map_congr_left fun (block, index) member => ?_
  have found := List.mem_zipIdx_iff_getElem?.mp member
  obtain ⟨length, extends_⟩ := take_concat_prefix found
  have started : emissions (blocks.take index ++ [block]) position port <+: emissions blocks position port :=
    extends_.map _
  have runs := alive block (List.mem_of_getElem? found)
  have waited := @arriving_starts _ start size wait _ _ index started (by simp [length])
  simp [Block.departing, runs, waited, length]

/-! ## Lanes -/

variable [Node ν] {patch : Patch ν} {options : CompileOptions} {placed : List (Placed ν)} {survey : Survey}
  {clock : Nat} {losses : List Nat} {alignment : Alignment} {latency : Nat → Nat}

def Continued (patch : Patch ν) (options : CompileOptions) (placed : List (Placed ν)) (survey : Survey)
    (start : Nat) (alignment : Alignment) (layout : Layout) (blocks : List (Block ν)) : Prop :=
  ∀ sofar block, sofar ++ [block] <+: blocks → block.before.layout = layout ∧
    ∃ clock losses, block.Continues patch options placed survey start alignment sofar clock losses

theorem Continued.before {layout : Layout} {sofar : List (Block ν)}
    (continued : Continued patch options placed survey start alignment layout blocks)
    (extends_ : sofar <+: blocks) : Continued patch options placed survey start alignment layout sofar :=
  fun earlier other shorter => continued earlier other (shorter.trans extends_)

section

variable (aligned : survey.graph.Aligned latency alignment)
  (within : ∀ position, latency position ≤ (declaredAt placed).getD position 0)
include aligned within

theorem Block.Continues.relayed_same
    (continues : block.Continues patch options placed survey start alignment blocks clock losses)
    {station : Station} {type : PortType} (found : block.before.layout.stations[position]? = some station)
    (typed : station.outputs[port]? = some type) (timed : type.Timed)
    (waits : alignment.values[position]? = some wait)
    (few : (block.departing start options.format.blockSize wait blocks position port).length ≤
      options.format.eventCapacity) :
    SameBy Event.frame (block.relayed (station.base + port))
      (block.departing start options.format.blockSize wait blocks position port) := by
  unfold Block.departing at few ⊢
  cases alive : block.after.monitor.isFailedAt position with
  | true =>
    obtain ⟨item, there, silent⟩ := continues.muted found typed alive
    rw [Block.relayed_eq there, silent, if_pos rfl]
    exact .of_eq rfl
  | false =>
    obtain ⟨again, lost, published, _, delivers⟩ := continues.output found typed timed alive
    rw [waits] at published
    cases published
    have fits := continues.serves.stations.wait_le found waits aligned within
    rw [Nat.min_eq_left fits] at delivers
    obtain ⟨item, there, events⟩ := delivers.events
    rw [alive, if_neg nofun] at few
    rw [Block.relayed_eq there, if_neg nofun]
    rwa [List.take_of_length_le few] at events

theorem Continued.relays_same {layout : Layout}
    (continued : Continued patch options placed survey start alignment layout blocks)
    {station : Station} {type : PortType} (found : layout.stations[position]? = some station)
    (typed : station.outputs[port]? = some type) (timed : type.Timed)
    (waits : alignment.values[position]? = some wait)
    (few : ∀ events ∈ departures start options.format.blockSize wait blocks position port,
      events.length ≤ options.format.eventCapacity) :
    List.Forall₂ (SameBy Event.frame) (relays blocks (station.base + port))
      (departures start options.format.blockSize wait blocks position port) := by
  induction blocks using List.reverseRecOn with
  | nil => exact .nil
  | append_singleton blocks block ih =>
    rw [departures_concat] at few ⊢
    rw [relays_concat]
    obtain ⟨same, clock, losses, continues⟩ := continued blocks block (List.prefix_refl _)
    refine List.rel_append (ih (continued.before (List.prefix_append _ _)) ?_) (.cons ?_ .nil)
    · exact fun events member => few events (List.mem_append_left _ member)
    · exact continues.relayed_same aligned within (same ▸ found) typed timed waits
        (few _ (List.mem_append_right _ (List.mem_singleton_self _)))

/-- What comes out of a line is what its producer's port let go, later. -/
theorem Continued.line_same {layout : Layout}
    (continued : Continued patch options placed survey start alignment layout blocks)
    (surveyed : Surveyed patch placed survey) {producer rest : Nat} {upstream : Station} {line : RouteLine}
    (found : layout.stations[producer]? = some upstream)
    (typed : upstream.outputs[port]? = some line.type) (timed : line.type.Timed)
    (source : line.source = upstream.base + port) (atLink : survey.graph.link producer position = some line.link)
    (capacity : line.capacity = survey.worst.arrivalAt position)
    (waits : alignment.values[producer]? = some wait) (left : alignment.links[line.link]? = some rest)
    (few : ∀ events ∈ departures start options.format.blockSize wait blocks producer port,
      events.length ≤ options.format.eventCapacity)
    {sofar : List (Block ν)} (extends_ : sofar ++ [block] <+: blocks) :
    SameBy Event.frame
      (arriving start options.format.blockSize (min rest line.capacity)
        (relays (sofar ++ [block]) line.source) sofar.length)
      (arriving start options.format.blockSize rest
        (departures start options.format.blockSize wait blocks producer port) sofar.length) := by
  have fits : rest ≤ line.capacity := capacity ▸ surveyed.rest_le_worst aligned within atLink left
  rw [Nat.min_eq_left fits, source, arriving_departures extends_]
  refine arriving_same ((continued.before extends_).relays_same aligned within found typed timed waits ?_) _
  exact fun events member => few events ((departures_starts extends_).subset member)

end

end Patchbay
