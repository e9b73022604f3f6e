import Patchbay.Proofs.Plan.Survey

/-! How lanes are numbered.

Stations take their lanes one after another: first the lines of their edges, then
their outputs. A line reads a lane before its station's, a feed one before its
station's outputs, and every edge that needs a line has one that no other edge
has.
-/

set_option autoImplicit false

namespace Patchbay

variable {ν : Type} [Node ν]

/-- The feed takes a wire's signal from the producer's lane, or from the wire's
line if it needs one. -/
def Feed.Leads (laneOf : Wire → Nat) (line? : Wire → Option (Nat × Nat)) (lines : List RouteLine)
    (wire : Wire) (feed : Feed) : Prop :=
  feed.source = laneOf wire ∧ feed.gain = wire.gain ∧
    match line? wire with
    | none => feed.lane = feed.source
    | some (link, capacity) => ⟨feed.source, feed.lane, wire.type, link, capacity⟩ ∈ lines

theorem Feed.Leads.mono {laneOf : Wire → Nat} {line? : Wire → Option (Nat × Nat)}
    {lines more : List RouteLine} {wire : Wire} {feed : Feed}
    (leads : Feed.Leads laneOf line? lines wire feed) (subset : lines ⊆ more) :
    Feed.Leads laneOf line? more wire feed := by
  obtain ⟨source, gain, lane⟩ := leads
  refine ⟨source, gain, ?_⟩
  cases needs : line? wire with
  | none => simpa only [needs] using lane
  | some line => exact subset (by simpa only [needs] using lane)

/-- The lines of some wires, numbered from `next` on, each for one feed. -/
structure LinesFor (laneOf : Wire → Nat) (line? : Wire → Option (Nat × Nat)) (next : Nat)
    (wires : List Wire) (feeds : List Feed) (lines : List RouteLine) : Prop where
  origin : ∀ line ∈ lines, ∃ wire ∈ wires, line? wire = some (line.link, line.capacity) ∧
    line.source = laneOf wire ∧ line.type = wire.type
  numbers : lines.map (·.lane) = List.range' next lines.length
  own : (feeds.filter fun feed => feed.lane ≠ feed.source).map (·.lane) = lines.map (·.lane)

namespace LinesFor

variable {laneOf : Wire → Nat} {line? : Wire → Option (Nat × Nat)}

theorem nil (next : Nat) : LinesFor laneOf line? next [] [] [] :=
  ⟨by simp, rfl, rfl⟩

theorem append {next : Nat} {wires others : List Wire} {feeds more : List Feed}
    {lines later : List RouteLine} (first : LinesFor laneOf line? next wires feeds lines)
    (second : LinesFor laneOf line? (next + lines.length) others more later) :
    LinesFor laneOf line? next (wires ++ others) (feeds ++ more) (lines ++ later) := by
  refine ⟨?_, ?_, ?_⟩
  · intro line member
    rcases List.mem_append.mp member with here | there
    · obtain ⟨wire, among, facts⟩ := first.origin line here
      exact ⟨wire, List.mem_append_left _ among, facts⟩
    · obtain ⟨wire, among, facts⟩ := second.origin line there
      exact ⟨wire, List.mem_append_right _ among, facts⟩
  · rw [List.map_append, first.numbers, second.numbers, List.range'_append_1, List.length_append]
  · rw [List.filter_append, List.map_append, first.own, second.own, List.map_append]

theorem lane_lt {next : Nat} {wires : List Wire} {feeds : List Feed} {lines : List RouteLine}
    (laid : LinesFor laneOf line? next wires feeds lines) {line : RouteLine} (member : line ∈ lines) :
    next ≤ line.lane ∧ line.lane < next + lines.length := by
  have numbered : line.lane ∈ lines.map (·.lane) := List.mem_map.mpr ⟨line, member, rfl⟩
  rw [laid.numbers, List.mem_range'_1] at numbered
  exact numbered

end LinesFor

namespace Layout

section Feeds

variable {bases : Array Nat} {laneOf : Wire → Nat} {line? : Wire → Option (Nat × Nat)}

theorem layFeeds_spec {next : Nat} {wires : List Wire} {feeds : List Feed} {lines : List RouteLine}
    (agree : ∀ wire ∈ wires, bases.getD wire.source 0 + wire.sourcePort = laneOf wire)
    (below : ∀ wire ∈ wires, laneOf wire < next)
    (answer : layFeeds bases line? next wires = (feeds, lines)) :
    List.Forall₂ (Feed.Leads laneOf line? lines) wires feeds ∧
      LinesFor laneOf line? next wires feeds lines := by
  induction wires generalizing next feeds lines with
  | nil =>
    cases answer
    exact ⟨.nil, .nil next⟩
  | cons wire rest ih =>
    have own := agree wire List.mem_cons_self
    have before := below wire List.mem_cons_self
    have agreeRest := fun other member => agree other (List.mem_cons_of_mem wire member)
    have belowRest := fun other member => below other (List.mem_cons_of_mem wire member)
    unfold layFeeds at answer
    dsimp only at answer
    split at answer
    · rename_i none
      cases answer
      obtain ⟨leads, laid⟩ := ih agreeRest belowRest rfl
      refine ⟨.cons ⟨own, rfl, by simp [none]⟩ leads, ?_⟩
      have single : LinesFor laneOf line? next [wire]
          [⟨bases.getD wire.source 0 + wire.sourcePort, bases.getD wire.source 0 + wire.sourcePort,
            wire.gain⟩] [] := ⟨by simp, rfl, by simp⟩
      exact single.append laid
    · rename_i link capacity some
      cases answer
      have laterBelow : ∀ other ∈ rest, laneOf other < next + 1 := fun other member =>
        Nat.lt_succ_of_lt (belowRest other member)
      obtain ⟨leads, laid⟩ := ih agreeRest laterBelow rfl
      refine ⟨.cons ⟨own, rfl, by simp [some]⟩
        (leads.imp fun _ _ led => led.mono (List.subset_cons_self _ _)), ?_⟩
      have single : LinesFor laneOf line? next [wire]
          [⟨bases.getD wire.source 0 + wire.sourcePort, next, wire.gain⟩]
          [⟨bases.getD wire.source 0 + wire.sourcePort, next, wire.type, link, capacity⟩] := by
        refine ⟨?_, rfl, ?_⟩
        · intro line member
          obtain rfl := List.mem_singleton.mp member
          exact ⟨wire, List.mem_singleton_self wire, some, own, rfl⟩
        -- The new lane is above every output, so the feed counts as one with a line of its own.
        · have differ : next ≠ bases.getD wire.source 0 + wire.sourcePort := by omega
          rw [List.filter_cons_of_pos (by simpa using differ)]
          rfl
      exact single.append laid

theorem layPorts_spec {next : Nat} {wires : List (List Wire)} {ports : List (List Feed)}
    {lines : List RouteLine}
    (agree : ∀ wire ∈ wires.flatten, bases.getD wire.source 0 + wire.sourcePort = laneOf wire)
    (below : ∀ wire ∈ wires.flatten, laneOf wire < next)
    (answer : layPorts bases line? next wires = (ports, lines)) :
    List.Forall₂ (List.Forall₂ (Feed.Leads laneOf line? lines)) wires ports ∧
      LinesFor laneOf line? next wires.flatten ports.flatten lines := by
  induction wires generalizing next ports lines with
  | nil =>
    cases answer
    exact ⟨.nil, .nil next⟩
  | cons row rest ih =>
    unfold layPorts at answer
    dsimp only at answer
    generalize first : layFeeds bases line? next row = laidRow at answer
    obtain ⟨feeds, own⟩ := laidRow
    generalize second : layPorts bases line? (next + own.length) rest = laidRest at answer
    obtain ⟨others, later⟩ := laidRest
    cases answer
    rw [List.flatten_cons] at agree below
    obtain ⟨leads, laid⟩ := layFeeds_spec
      (fun wire member => agree wire (List.mem_append_left _ member))
      (fun wire member => below wire (List.mem_append_left _ member)) first
    obtain ⟨leadsRest, laidRest⟩ := ih
      (fun wire member => agree wire (List.mem_append_right _ member))
      (fun wire member => Nat.lt_add_right _ (below wire (List.mem_append_right _ member))) second
    -- What leads by the lines of some ports still does so among the lines of all.
    refine ⟨.cons ?_ ?_, laid.append laidRest⟩
    · exact leads.imp fun _ _ led => led.mono (List.subset_append_left own later)
    · exact leadsRest.imp fun _ _ leads =>
        leads.imp fun _ _ led => led.mono (List.subset_append_right own later)

end Feeds

def laneOf (stations : List Station) (wire : Wire) : Nat :=
  (stations[wire.source]?.map (·.base)).getD 0 + wire.sourcePort

end Layout

/-- A station's lanes begin at `next` and read only what lies before them. -/
structure Station.Numbers (next : Nat) (station : Station) : Prop where
  base : station.base = next + station.lines.length
  lines : station.lines.map (·.lane) = List.range' next station.lines.length
  sources : ∀ line ∈ station.lines, line.source < next
  feeds : ∀ feed ∈ station.feeds, feed.lane < station.base

def Layout.Numbered : (next : Nat) → List Station → Prop
  | _, [] => True
  | next, station :: rest => station.Numbers next ∧ Numbered station.stop rest

structure Stationed (survey : Survey) (stations : List Station) (position : Nat) (place : Placed ν)
    (station : Station) : Prop where
  id : station.id = place.id
  outputs : station.outputs = (Node.outputs place.node).map (·.type)
  delayCapacity : station.delayCapacity = survey.delayCapacity position
  feeds : List.Forall₂
    (List.Forall₂ (Feed.Leads (Layout.laneOf stations) (survey.line? position) station.lines))
    (survey.wires[position]?.getD []) station.inputs
  lines : LinesFor (Layout.laneOf stations) (survey.line? position)
    (station.base - station.lines.length) (survey.wires[position]?.getD []).flatten station.feeds
    station.lines

section

variable {patch : Patch ν} {placed : List (Placed ν)} {survey : Survey}

theorem Surveyed.wire_source (surveyed : Surveyed patch placed survey) {position : Nat}
    {place : Placed ν} {wire : Wire} (item : placed[position]? = some place)
    (member : wire ∈ (survey.wires[position]?.getD []).flatten) :
    wire.source < position ∧ ∃ source, placed[wire.source]? = some source ∧
      ((Node.outputs source.node).map (·.type))[wire.sourcePort]? = some wire.type := by
  obtain ⟨id, edge, found, into, carries⟩ := surveyed.wired.exists_edge item member
  obtain ⟨source, atSource, same⟩ := carries.source
  obtain ⟨spec, ⟨node, present, atPort⟩, type⟩ := carries.type
  have feeds : patch.Feeds source.id place.id := ⟨id, edge, found, same.symm, into⟩
  obtain ⟨earlier, less, other, atEarlier, again⟩ := surveyed.placement.precedes item feeds
  rw [surveyed.placement.position_unique atSource atEarlier again.symm]
  refine ⟨less, other, atEarlier, ?_⟩
  have here := surveyed.placement.present other (List.mem_of_getElem? atEarlier)
  rw [again, same, present] at here
  cases here
  rw [carries.port, List.getElem?_map, atPort, Option.map_some, type]

/-- Every place before `next` has its outputs before `next`. -/
def Layout.LaidBelow (placed : List (Placed ν)) (next : Nat) (done : List Station) : Prop :=
  ∀ (position : Nat) station, done[position]? = some station → ∃ place,
    placed[position]? = some place ∧ station.base + (Node.outputs place.node).length ≤ next

namespace Layout.LaidBelow

variable {next : Nat} {done : List Station} (laid : LaidBelow placed next done)
include laid

theorem wire (surveyed : Surveyed patch placed survey) {place : Placed ν} (here : placed[done.length]? = some place)
    {wire : Wire} (member : wire ∈ (survey.wires[done.length]?.getD []).flatten) (more : List Station) :
    (done.map (·.base)).toArray.getD wire.source 0 + wire.sourcePort = laneOf (done ++ more) wire ∧
      laneOf (done ++ more) wire < next := by
  obtain ⟨less, source, atSource, atPort⟩ := surveyed.wire_source here member
  obtain ⟨earlier, same⟩ : ∃ earlier, done[wire.source]? = some earlier := ⟨_, List.getElem?_eq_getElem less⟩
  obtain ⟨other, atOther, room⟩ := laid wire.source earlier same
  rw [atSource] at atOther
  cases atOther
  have port := (List.getElem?_eq_some_iff.mp atPort).1
  rw [List.length_map] at port
  have lane : laneOf (done ++ more) wire = earlier.base + wire.sourcePort := by
    rw [laneOf, List.getElem?_append_left less, same]
    rfl
  rw [lane]
  refine ⟨?_, by omega⟩
  simp [Array.getD_eq_getD_getElem?, same]

theorem concat {place : Placed ν} (here : placed[done.length]? = some place) {station : Station}
    (above : next ≤ station.stop) (outputs : station.outputs.length = (Node.outputs place.node).length) :
    LaidBelow placed station.stop (done ++ [station]) := by
  intro position other found
  by_cases earlier : position < done.length
  · rw [List.getElem?_append_left earlier] at found
    obtain ⟨there, item, room⟩ := laid position other found
    exact ⟨there, item, room.trans above⟩
  · have bound := (List.getElem?_eq_some_iff.mp found).1
    rw [List.length_append, List.length_singleton] at bound
    obtain rfl : position = done.length := by omega
    rw [List.getElem?_concat_length] at found
    cases found
    exact ⟨place, here, by rw [Station.stop, outputs]⟩

end Layout.LaidBelow

theorem Station.numbers_of_laid {laneOf : Wire → Nat} {line? : Wire → Option (Nat × Nat)} {next : Nat}
    {wires : List (List Wire)} {station : Station} (base : station.base = next + station.lines.length)
    (below : ∀ wire ∈ wires.flatten, laneOf wire < next)
    (leads : List.Forall₂ (List.Forall₂ (Feed.Leads laneOf line? station.lines)) wires station.inputs)
    (laid : LinesFor laneOf line? next wires.flatten station.inputs.flatten station.lines) :
    station.Numbers next := by
  refine ⟨base, laid.numbers, ?_, ?_⟩
  · intro line member
    obtain ⟨wire, among, _, source, _⟩ := laid.origin line member
    rw [source]
    exact below wire among
  · intro feed member
    obtain ⟨wire, among, _, _, lane⟩ := exists_of_mem_right (List.rel_flatten leads) member
    have before := below wire among
    rw [base]
    split at lane
    · omega
    · exact (laid.lane_lt lane).2

/-- The stations that are still to be laid out fit what was laid out before. -/
theorem Layout.layStations_from (all done : List Station) (next : Nat) (rest : List (Placed ν))
    (surveyed : Surveyed patch placed survey)
    (remaining : ∀ rank : Nat, rest[rank]? = placed[done.length + rank]?)
    (laid : LaidBelow placed next done)
    (final : all = done ++ layStations survey (done.map (·.base)).toArray next rest) :
    Numbered next (layStations survey (done.map (·.base)).toArray next rest) ∧
      ∀ (rank : Nat) place, rest[rank]? = some place → ∃ station,
        (layStations survey (done.map (·.base)).toArray next rest)[rank]? = some station ∧
          Stationed survey all (done.length + rank) place station := by
  induction rest generalizing done next with
  | nil => exact ⟨trivial, by simp⟩
  | cons place rest ih =>
    have here : placed[done.length]? = some place := by simpa using (remaining 0).symm
    unfold layStations at final ⊢
    dsimp only at final ⊢
    have position : (done.map (·.base)).toArray.size = done.length := by simp
    rw [position] at final ⊢
    generalize ports : layPorts (done.map (·.base)).toArray (survey.line? done.length) next
      (survey.wires[done.length]?.getD []) = result at final ⊢
    obtain ⟨inputs, lines⟩ := result
    dsimp only at final ⊢
    set station : Station := {
      id := place.id
      name := Node.name place.node
      inputs
      lines
      base := next + lines.length
      outputs := (Node.outputs place.node).map (·.type)
      delayCapacity := survey.delayCapacity done.length } with stationEq
    have pushed : ((done.map (·.base)).toArray.push (next + lines.length)) =
        ((done ++ [station]).map (·.base)).toArray := by simp [stationEq]
    rw [pushed] at final ⊢
    -- Wires come from earlier stations only, so the bases collected so far are the final ones.
    have before : ∀ wire ∈ (survey.wires[done.length]?.getD []).flatten,
        (done.map (·.base)).toArray.getD wire.source 0 + wire.sourcePort = laneOf all wire ∧
          laneOf all wire < next := by
      rw [final]
      exact fun wire member => laid.wire surveyed here member _
    obtain ⟨leads, linesFor⟩ := layPorts_spec (fun wire member => (before wire member).1)
      (fun wire member => (before wire member).2) ports
    have numbers : station.Numbers next :=
      Station.numbers_of_laid rfl (fun wire member => (before wire member).2) leads linesFor
    have nextLaid : LaidBelow placed station.stop (done ++ [station]) := by
      refine laid.concat here ?_ (by simp [stationEq])
      simp only [Station.stop, stationEq]
      omega
    have shifted : ∀ rank : Nat, rest[rank]? = placed[(done ++ [station]).length + rank]? := by
      intro rank
      rw [List.length_append, List.length_singleton, Nat.add_assoc, Nat.add_comm 1 rank,
        ← remaining (rank + 1)]
      rfl
    obtain ⟨numberedRest, stationedRest⟩ := ih _ _ shifted nextLaid (by rw [final]; simp)
    refine ⟨⟨numbers, numberedRest⟩, ?_⟩
    intro rank other found
    cases rank with
    | zero =>
      cases found
      refine ⟨station, rfl, rfl, rfl, rfl, leads, ?_⟩
      have start : station.base - station.lines.length = next := Nat.add_sub_cancel next _
      rw [start]
      exact linesFor
    | succ rank =>
      obtain ⟨there, item, stationed⟩ := stationedRest rank other found
      refine ⟨there, item, ?_⟩
      rw [List.length_append, List.length_singleton, Nat.add_assoc, Nat.add_comm 1 rank] at stationed
      exact stationed

theorem Layout.length_layStations (survey : Survey) (bases : Array Nat) (next : Nat)
    (rest : List (Placed ν)) : (layStations survey bases next rest).length = rest.length := by
  induction rest generalizing bases next with
  | nil => rfl
  | cons place rest ih => simp [layStations, ih]

structure Stations (patch : Patch ν) (placed : List (Placed ν)) (survey : Survey)
    (stations : List Station) : Prop where
  surveyed : Surveyed patch placed survey
  length : stations.length = placed.length
  numbered : Layout.Numbered 0 stations
  stationed : ∀ {position : Nat} {place}, placed[position]? = some place → ∃ station,
    stations[position]? = some station ∧ Stationed survey stations position place station

theorem Layout.layStations_stations (surveyed : Surveyed patch placed survey) :
    Stations patch placed survey (layStations survey #[] 0 placed) := by
  obtain ⟨numbered, stationed⟩ := layStations_from (layStations survey #[] 0 placed) [] 0
    placed surveyed (by simp)
    (fun _ _ found => by simp at found) rfl
  refine ⟨surveyed, length_layStations _ _ _ _, numbered, ?_⟩
  intro position place item
  simpa using stationed position place item

end

end Patchbay
