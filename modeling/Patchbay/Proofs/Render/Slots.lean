import Patchbay.Proofs.Plan.Assembly

/-! Where a station's lanes lie.

The slots of a layout stand in the order of the lanes. A line's lane has the
line's type and length, and so has an output's; a line reads a lane of the type
that it carries.
-/

set_option autoImplicit false

namespace Patchbay

theorem Station.stop_eq {next : Nat} {station : Station} (numbers : station.Numbers next) :
    station.stop = next + station.slots.length := by
  simp only [stop, numbers.base, slots, List.length_append, List.length_map]
  omega

theorem Station.Numbers.line_lt {next : Nat} {station : Station} (numbers : station.Numbers next) :
    ∀ line ∈ station.lines, line.source < next ∧ next ≤ line.lane ∧ line.lane < station.base := by
  intro line member
  have numbered : line.lane ∈ station.lines.map (·.lane) := List.mem_map.mpr ⟨line, member, rfl⟩
  rw [numbers.lines, List.mem_range'_1] at numbered
  have base := numbers.base
  exact ⟨numbers.sources line member, numbered.1, by omega⟩

structure Station.Slotted (slots : List (PortType × Nat)) (station : Station) : Prop where
  lines : ∀ line ∈ station.lines, slots[line.lane]? = some (line.type, line.capacity)
  sources : ∀ line ∈ station.lines, ∃ room, slots[line.source]? = some (line.type, room)
  outputs : ∀ {port : Nat} {type}, station.outputs[port]? = some type →
    slots[station.base + port]? = some (type, station.delayCapacity)

namespace Layout.Numbered

variable {slots : List (PortType × Nat)} {next : Nat} {stations : List Station} {station : Station}

theorem exists_start (numbered : Numbered next stations)
    (rest : slots.drop next = stations.flatMap (·.slots)) (member : station ∈ stations) :
    ∃ start, next ≤ start ∧ station.Numbers start ∧ ∀ (index : Nat) slot,
      station.slots[index]? = some slot → slots[start + index]? = some slot := by
  induction stations generalizing next with
  | nil => cases member
  | cons first others ih =>
    obtain ⟨numbers, later⟩ := numbered
    rw [List.flatMap_cons] at rest
    rcases List.mem_cons.mp member with rfl | among
    · refine ⟨next, le_refl next, numbers, ?_⟩
      intro index slot found
      have inside := (List.getElem?_eq_some_iff.mp found).1
      rw [← List.getElem?_drop, rest, List.getElem?_append_left inside, found]
    · have past : slots.drop first.stop = others.flatMap (·.slots) := by
        rw [first.stop_eq numbers, ← List.drop_drop, rest, List.drop_left]
      obtain ⟨start, above, facts⟩ := ih later past among
      have := first.stop_eq numbers
      exact ⟨start, by omega, facts⟩

theorem line_slot (numbered : Numbered 0 stations) (member : station ∈ stations) {line : RouteLine}
    (among : line ∈ station.lines) :
    (stations.flatMap (·.slots))[line.lane]? = some (line.type, line.capacity) := by
  obtain ⟨start, _, numbers, slot⟩ := numbered.exists_start List.drop_zero member
  obtain ⟨index, found⟩ := List.mem_iff_getElem?.mp among
  have inside := (List.getElem?_eq_some_iff.mp found).1
  have lane : line.lane = start + index := by
    have here : (station.lines.map (·.lane))[index]? = some line.lane := by simp [found]
    rw [numbers.lines, List.getElem?_range' inside] at here
    simpa [eq_comm] using here
  rw [lane]
  apply slot
  rw [Station.slots, List.getElem?_append_left (by simpa using inside), List.getElem?_map, found]
  rfl

theorem output_slot (numbered : Numbered 0 stations) (member : station ∈ stations) {port : Nat}
    {type : PortType} (typed : station.outputs[port]? = some type) :
    (stations.flatMap (·.slots))[station.base + port]? = some (type, station.delayCapacity) := by
  obtain ⟨start, _, numbers, slot⟩ := numbered.exists_start List.drop_zero member
  rw [numbers.base, Nat.add_assoc]
  apply slot
  rw [Station.slots, List.getElem?_append_right (by simp), List.length_map, Nat.add_sub_cancel_left,
    List.getElem?_map, typed]
  rfl

end Layout.Numbered

section

variable {ν : Type} [Node ν] {patch : Patch ν} {placed : List (Placed ν)} {survey : Survey}
  {stations : List Station}

theorem Stations.place_of (laid : Stations patch placed survey stations) {position : Nat}
    {station : Station} (found : stations[position]? = some station) :
    ∃ place, placed[position]? = some place ∧ Stationed survey stations position place station := by
  have inside := (List.getElem?_eq_some_iff.mp found).1
  rw [laid.length] at inside
  have item := List.getElem?_eq_getElem inside
  obtain ⟨again, there, stationed⟩ := laid.stationed item
  rw [found] at there
  cases there
  exact ⟨_, item, stationed⟩

theorem Stations.output_iff (laid : Stations patch placed survey stations) {position port : Nat}
    {place : Placed ν} {station : Station} {type : PortType} (item : placed[position]? = some place)
    (found : stations[position]? = some station) :
    station.outputs[port]? = some type ↔ ∃ spec, patch.OutputAt place.id port spec ∧ spec.type = type := by
  obtain ⟨_, there, stationed⟩ := laid.place_of found
  rw [item] at there
  cases there
  have present := laid.surveyed.placement.present place (List.mem_of_getElem? item)
  rw [stationed.outputs, List.getElem?_map, Option.map_eq_some_iff]
  constructor
  · rintro ⟨spec, atPort, same⟩
    exact ⟨spec, ⟨_, present, atPort⟩, same⟩
  · rintro ⟨spec, ⟨node, there, atPort⟩, same⟩
    rw [present] at there
    cases there
    exact ⟨spec, atPort, same⟩

theorem Stations.wire_slot (laid : Stations patch placed survey stations) {position : Nat}
    {place : Placed ν} (item : placed[position]? = some place) {wire : Wire}
    (member : wire ∈ (survey.wires[position]?.getD []).flatten) :
    ∃ station, stations[wire.source]? = some station ∧
      station.outputs[wire.sourcePort]? = some wire.type ∧
      Layout.laneOf stations wire = station.base + wire.sourcePort := by
  obtain ⟨_, source, atSource, typed⟩ := laid.surveyed.wire_source item member
  obtain ⟨station, found, stationed⟩ := laid.stationed atSource
  rw [← stationed.outputs] at typed
  refine ⟨station, found, typed, ?_⟩
  rw [Layout.laneOf, found]
  rfl

theorem Stations.slotted (laid : Stations patch placed survey stations) {station : Station}
    (member : station ∈ stations) : station.Slotted (stations.flatMap (·.slots)) := by
  refine ⟨fun line among => laid.numbered.line_slot member among, ?_,
    fun typed => laid.numbered.output_slot member typed⟩
  intro line among
  obtain ⟨position, found⟩ := List.mem_iff_getElem?.mp member
  obtain ⟨place, item, stationed⟩ := laid.place_of found
  obtain ⟨wire, inWires, _, source, type⟩ := stationed.lines.origin line among
  obtain ⟨producer, atSource, typed, lane⟩ := laid.wire_slot item inWires
  refine ⟨producer.delayCapacity, ?_⟩
  rw [source, lane, type]
  exact laid.numbered.output_slot (List.mem_of_getElem? atSource) typed

end

end Patchbay
