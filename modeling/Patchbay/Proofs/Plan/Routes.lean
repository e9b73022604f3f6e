import Patchbay.Proofs.Render.Slots

/-! How the edges of a patch run through a plan.

Every edge has one feed, which reads the producer's lane or a line of its own.
No two edges share a line.
-/

set_option autoImplicit false

namespace Patchbay

variable {ν : Type} [Node ν]

/-- A feed reads its producer's lane, unless the producer fans out and the consumer
can arrive late. -/
inductive Feed.Reads (survey : Survey) (station : Station) (position producer : Nat) (type : PortType)
    (feed : Feed) : Prop where
  | shared : feed.lane = feed.source →
      (survey.graph.fansOut producer = true → type.kind ≠ .control →
        survey.worst.arrivalAt position = 0) → Reads survey station position producer type feed
  | own {link : Nat} : survey.graph.link producer position = some link → type.kind ≠ .control →
      ⟨feed.source, feed.lane, type, link, survey.worst.arrivalAt position⟩ ∈ station.lines →
      Reads survey station position producer type feed

structure Edge.Routed (placed : List (Placed ν)) (survey : Survey) (stations : List Station) (edge : Edge)
    (station : Station) (position producer : Nat) (type : PortType) (feed : Feed) : Prop where
  source : ∃ place, placed[producer]? = some place ∧ place.id = edge.source
  earlier : producer < position
  output : ∃ upstream, stations[producer]? = some upstream ∧
    upstream.outputs[edge.sourcePort]? = some type ∧ feed.source = upstream.base + edge.sourcePort
  consumer : position ∈ survey.graph.consumersOf producer
  gain : feed.gain = edge.gain
  reads : feed.Reads survey station position producer type

section

variable {patch : Patch ν} {placed : List (Placed ν)} {survey : Survey} {stations : List Station}

theorem Stations.routed (laid : Stations patch placed survey stations) {position : Nat}
    {place : Placed ν} {station : Station} (item : placed[position]? = some place) {id : EdgeId}
    {edge : Edge} {wire : Wire} {feed : Feed} (found : patch.edge? id = some edge)
    (into : edge.dest = place.id) (member : wire ∈ (survey.wires[position]?.getD []).flatten)
    (carries : Wire.Carries patch placed edge wire)
    (leads : Feed.Leads (Layout.laneOf stations) (survey.line? position) station.lines wire feed) :
    edge.Routed placed survey stations station position wire.source wire.type feed := by
  have surveyed := laid.surveyed
  obtain ⟨upstream, atSource, typed, lane⟩ := laid.wire_slot item member
  obtain ⟨place', atPlace, same⟩ := carries.source
  have feeds : patch.Feeds place'.id place.id := ⟨id, edge, found, same.symm, into⟩
  have consumer : position ∈ survey.graph.consumersOf wire.source :=
    surveyed.mem_consumersOf.mpr ⟨_, _, item, atPlace, feeds⟩
  obtain ⟨source, gain, lanes⟩ := leads
  refine {
    source := ⟨place', atPlace, same⟩
    earlier := (surveyed.wire_source item member).1
    output := ⟨upstream, atSource, carries.port ▸ typed, ?_⟩
    consumer
    gain := gain.trans carries.gain
    reads := ?_ }
  · rw [source, lane, carries.port]
  · obtain ⟨link, atLink⟩ := surveyed.inOrder.exists_link consumer
    cases needs : survey.line? position wire with
    | none =>
      simp only [needs] at lanes
      refine .shared lanes fun fans delayable => ?_
      -- A wire that fans out and can be delayed has a line unless its consumer never waits.
      by_contra room
      have line : survey.line? position wire = some (link, survey.worst.arrivalAt position) := by
        refine Survey.line?_eq_some.mpr ⟨atLink, ?_, by omega⟩
        rw [Survey.lineCapacity, if_pos ⟨fans, delayable⟩]
      rw [needs] at line
      cases line
    | some line =>
      obtain ⟨link, capacity⟩ := line
      simp only [needs] at lanes
      obtain ⟨atLink, length, room⟩ := Survey.line?_eq_some.mp needs
      unfold Survey.lineCapacity at length
      split at length
      · rename_i fans
        subst length
        exact .own atLink fans.2 lanes
      · omega

/-- Each input port has one feed for each edge into it, in the order of the edges'
ids. -/
theorem Stations.routes (laid : Stations patch placed survey stations) {position : Nat}
    {place : Placed ν} {station : Station} (item : placed[position]? = some place)
    (found : stations[position]? = some station) :
    station.inputs.length = (Node.inputs place.node).length ∧
      ∀ (port : Nat) row, station.inputs[port]? = some row → List.Forall₂ (fun entry feed =>
        ∃ producer type, entry.2.Routed placed survey stations station position producer type feed)
        (patch.edgesInto place.id port) row := by
  obtain ⟨_, _, stationed⟩ := laid.place_of found
  have stationed := stationed.feeds
  obtain ⟨wires, atPosition, count, rows⟩ := laid.surveyed.wired.ports item
  rw [atPosition, Option.getD_some] at stationed
  refine ⟨stationed.length_eq.symm.trans count, ?_⟩
  intro port feeds atPort
  obtain ⟨row, atWires, leads⟩ := exists_getElem?_right stationed atPort
  have entries : ∀ entry ∈ patch.edgesInto place.id port,
      patch.edge? entry.1 = some entry.2 ∧ entry.2.dest = place.id := fun entry member =>
    have edge := Patch.mem_edgesInto.mp member
    ⟨edge.1, edge.2.1⟩
  have wiresIn : ∀ wire ∈ row, wire ∈ (survey.wires[position]?.getD []).flatten := by
    intro wire member
    rw [atPosition, Option.getD_some]
    exact List.mem_flatten.mpr ⟨row, List.mem_of_getElem? atWires, member⟩
  -- Rank by rank, an edge has a wire and the wire has a feed.
  refine forall₂_comp ?_ ((List.forall₂_and_left _ _).mpr ⟨entries, rows port row atWires⟩)
    ((List.forall₂_and_left _ _).mpr ⟨wiresIn, leads⟩)
  rintro entry wire feed ⟨⟨edge, into⟩, carries⟩ ⟨member, leads⟩
  exact ⟨_, _, laid.routed item edge into member carries leads⟩

theorem Stations.exists_routed (laid : Stations patch placed survey stations) {id : EdgeId} {edge : Edge}
    (found : patch.edge? id = some edge) :
    ∃ (position rank : Nat) (place : Placed ν) (station : Station) (row : List Feed) (feed : Feed),
      placed[position]? = some place ∧ place.id = edge.dest ∧ stations[position]? = some station ∧
      station.inputs[edge.destPort]? = some row ∧
      (patch.edgesInto edge.dest edge.destPort)[rank]? = some (id, edge) ∧ row[rank]? = some feed ∧
      ∃ producer type, edge.Routed placed survey stations station position producer type feed := by
  obtain ⟨_, input, _, ⟨node, present, atPort⟩, _⟩ := laid.surveyed.fits id edge found
  obtain ⟨position, item⟩ := laid.surveyed.placement.exists_position present
  obtain ⟨station, atStation, _⟩ := laid.stationed item
  obtain ⟨count, rows⟩ := laid.routes item atStation
  have inside : edge.destPort < station.inputs.length := by
    rw [count]
    exact (List.getElem?_eq_some_iff.mp atPort).1
  have member : (id, edge) ∈ patch.edgesInto edge.dest edge.destPort :=
    Patch.mem_edgesInto.mpr ⟨found, rfl, rfl⟩
  -- Edges and feeds of a port match in order, so an edge and its feed have one rank.
  obtain ⟨rank, atRank⟩ := List.mem_iff_getElem?.mp member
  obtain ⟨feed, feedAt, producer, type, routed⟩ :=
    exists_getElem?_left (rows edge.destPort _ (List.getElem?_eq_getElem inside)) atRank
  exact ⟨position, rank, _, station, _, feed, item, rfl, atStation, List.getElem?_eq_getElem inside, atRank, feedAt,
    producer, type, routed⟩

theorem Stations.line_edge (laid : Stations patch placed survey stations) {position : Nat}
    {station : Station} (found : stations[position]? = some station) {line : RouteLine}
    (among : line ∈ station.lines) :
    ∃ (id : EdgeId) (edge : Edge) (producer : Nat) (place origin : Placed ν) (upstream : Station),
      patch.edge? id = some edge ∧ placed[position]? = some place ∧ place.id = edge.dest ∧
      placed[producer]? = some origin ∧ origin.id = edge.source ∧ stations[producer]? = some upstream ∧
      upstream.outputs[edge.sourcePort]? = some line.type ∧
      line.source = upstream.base + edge.sourcePort ∧
      survey.graph.link producer position = some line.link ∧
      line.capacity = survey.worst.arrivalAt position := by
  obtain ⟨place, item, stationed⟩ := laid.place_of found
  obtain ⟨wire, inWires, needs, source, type⟩ := stationed.lines.origin line among
  obtain ⟨id, edge, atId, into, carries⟩ := laid.surveyed.wired.exists_edge item inWires
  obtain ⟨upstream, atSource, typed, lane⟩ := laid.wire_slot item inWires
  obtain ⟨origin, atOrigin, same⟩ := carries.source
  obtain ⟨atLink, length, room⟩ := Survey.line?_eq_some.mp needs
  refine ⟨id, edge, wire.source, place, origin, upstream, atId, item, into.symm, atOrigin, same, atSource,
    ?_, ?_, atLink, ?_⟩
  · rw [← carries.port, type]
    exact typed
  · rw [source, lane, carries.port]
  · unfold Survey.lineCapacity at length
    split at length
    · exact length
    · omega

theorem Stations.line_feeder (laid : Stations patch placed survey stations) {position : Nat} {place : Placed ν}
    {station : Station} (item : placed[position]? = some place) (found : stations[position]? = some station)
    {line : RouteLine} (among : line ∈ station.lines) :
    ∃ (producer port : Nat) (origin : Placed ν) (upstream : Station), producer < position ∧
      placed[producer]? = some origin ∧ patch.Feeds origin.id place.id ∧ stations[producer]? = some upstream ∧
      port < upstream.outputs.length ∧ line.source = upstream.base + port := by
  obtain ⟨id, edge, producer, again, origin, upstream, atId, here, into, atSource, source, atUpstream, typed,
    lane, atLink, _⟩ := laid.line_edge found among
  rw [item] at here
  cases here
  have inOrder := laid.surveyed.inOrder
  have earlier := inOrder.precedes (inOrder.mem_consumersOf.mp (inOrder.mem_of_link atLink))
  exact ⟨producer, edge.sourcePort, origin, upstream, earlier, atSource, ⟨id, edge, atId, source.symm, into.symm⟩,
    atUpstream, (List.getElem?_eq_some_iff.mp typed).1, lane⟩

theorem Stations.feed_cases (laid : Stations patch placed survey stations) {position : Nat} {place : Placed ν}
    {station : Station} (item : placed[position]? = some place) (found : stations[position]? = some station)
    {feed : Feed} (among : feed ∈ station.feeds) :
    (∃ line ∈ station.lines, line.lane = feed.lane) ∨
    ∃ (producer port : Nat) (origin : Placed ν) (upstream : Station), producer < position ∧
      placed[producer]? = some origin ∧ patch.Feeds origin.id place.id ∧ stations[producer]? = some upstream ∧
      port < upstream.outputs.length ∧ feed.lane = upstream.base + port := by
  obtain ⟨row, inRow, cell⟩ := List.mem_flatten.mp among
  obtain ⟨port, atPort⟩ := List.mem_iff_getElem?.mp inRow
  obtain ⟨entry, inEntries, producer, type, routed⟩ :=
    exists_of_mem_right ((laid.routes item found).2 port row atPort) cell
  have edge := Patch.mem_edgesInto.mp inEntries
  cases routed.reads with
  | own _ _ inLines => exact .inl ⟨_, inLines, rfl⟩
  | shared same _ =>
    obtain ⟨origin, atSource, source⟩ := routed.source
    obtain ⟨upstream, atUpstream, typed, lane⟩ := routed.output
    exact .inr ⟨producer, _, origin, upstream, routed.earlier, atSource,
      ⟨entry.1, entry.2, edge.1, source.symm, edge.2.1⟩, atUpstream, (List.getElem?_eq_some_iff.mp typed).1,
      same.trans lane⟩

end

/-! ## Lines are not shared -/

theorem Layout.Numbered.apart {next : Nat} {stations : List Station} (numbered : Numbered next stations) :
    (∀ station ∈ stations, next + station.lines.length ≤ station.base) ∧
      stations.Pairwise fun first second => first.stop + second.lines.length ≤ second.base := by
  induction stations generalizing next with
  | nil => exact ⟨by simp, .nil⟩
  | cons station rest ih =>
    obtain ⟨numbers, numbered⟩ := numbered
    obtain ⟨above, pairwise⟩ := ih numbered
    refine ⟨?_, pairwise.cons above⟩
    intro other member
    have base := numbers.base
    rcases List.mem_cons.mp member with rfl | later
    · omega
    · have := above other later
      have : station.base ≤ station.stop := Nat.le_add_right _ _
      omega

def Station.Lined (station : Station) (lane : Nat) : Prop :=
  station.base ≤ lane + station.lines.length ∧ lane < station.base

section

variable {patch : Patch ν} {placed : List (Placed ν)} {survey : Survey} {stations : List Station}

theorem Stations.apart (laid : Stations patch placed survey stations) {first second : Nat}
    {station other : Station} (here : stations[first]? = some station)
    (there : stations[second]? = some other) (less : first < second) :
    station.stop + other.lines.length ≤ other.base := by
  obtain ⟨inside, rfl⟩ := List.getElem?_eq_some_iff.mp here
  obtain ⟨within, rfl⟩ := List.getElem?_eq_some_iff.mp there
  exact List.pairwise_iff_getElem.mp laid.numbered.apart.2 first second inside within less

theorem Stations.lined_iff (laid : Stations patch placed survey stations) {position lane : Nat}
    {station : Station} (found : stations[position]? = some station) :
    station.Lined lane ↔ ∃ line ∈ station.lines, line.lane = lane := by
  obtain ⟨_, _, stationed⟩ := laid.place_of found
  have above := laid.numbered.apart.1 station (List.mem_of_getElem? found)
  rw [← List.mem_map, stationed.lines.numbers, List.mem_range'_1, Station.Lined]
  omega

theorem Stations.lined_unique (laid : Stations patch placed survey stations) {first second lane : Nat}
    {station other : Station} (here : stations[first]? = some station)
    (there : stations[second]? = some other) (mine : station.Lined lane) (also : other.Lined lane) :
    first = second := by
  have reach : station.base ≤ station.stop := Nat.le_add_right _ _
  have reach' : other.base ≤ other.stop := Nat.le_add_right _ _
  unfold Station.Lined at mine also
  rcases Nat.lt_trichotomy first second with less | same | more
  · have := laid.apart here there less
    omega
  · exact same
  · have := laid.apart there here more
    omega

theorem Stations.lined_not_output (laid : Stations patch placed survey stations)
    {first second port : Nat} {station other : Station} (here : stations[first]? = some station)
    (there : stations[second]? = some other) (output : port < other.outputs.length) :
    ¬ station.Lined (other.base + port) := by
  rintro ⟨low, high⟩
  rcases Nat.lt_trichotomy first second with less | rfl | more
  · have := laid.apart here there less
    have : station.base ≤ station.stop := Nat.le_add_right _ _
    omega
  · rw [here] at there
    cases there
    omega
  · have := laid.apart there here more
    unfold Station.stop at this
    omega

/-- The feed of a line reads that line's lane, and no other feed of the station does. -/
theorem Stations.own_pairwise (laid : Stations patch placed survey stations) {position : Nat}
    {station : Station} (found : stations[position]? = some station) :
    (∀ feed ∈ station.feeds, feed.lane ≠ feed.source → station.Lined feed.lane) ∧
      station.feeds.Pairwise fun first second => first.lane ≠ first.source →
        second.lane ≠ second.source → first.lane ≠ second.lane := by
  obtain ⟨_, _, stationed⟩ := laid.place_of found
  have above := laid.numbered.apart.1 station (List.mem_of_getElem? found)
  have lines := stationed.lines
  have own := lines.own
  rw [lines.numbers] at own
  refine ⟨?_, ?_⟩
  · intro feed member differ
    have among : feed.lane ∈ (station.feeds.filter fun feed => feed.lane ≠ feed.source).map (·.lane) :=
      List.mem_map.mpr ⟨feed, List.mem_filter.mpr ⟨member, by simpa using differ⟩, rfl⟩
    rw [own, List.mem_range'_1] at among
    unfold Station.Lined
    omega
  · have distinct : ((station.feeds.filter fun feed => feed.lane ≠ feed.source).map (·.lane)).Nodup := by
      rw [own]
      exact List.nodup_range'
    rw [List.Nodup, List.pairwise_map, List.pairwise_filter] at distinct
    exact distinct.imp fun apart mine also => apart (by simpa using mine) (by simpa using also)

theorem Stations.own_unique (laid : Stations patch placed survey stations)
    {position position' port port' rank rank' : Nat} {station station' : Station}
    {row row' : List Feed} {feed feed' : Feed}
    (here : stations[position]? = some station) (atPort : station.inputs[port]? = some row)
    (atRank : row[rank]? = some feed) (there : stations[position']? = some station')
    (atPort' : station'.inputs[port']? = some row') (atRank' : row'[rank']? = some feed')
    (own : feed.lane ≠ feed.source) (own' : feed'.lane ≠ feed'.source) (same : feed.lane = feed'.lane) :
    position = position' ∧ port = port' ∧ rank = rank' := by
  have member : feed ∈ station.feeds :=
    List.mem_flatten.mpr ⟨row, List.mem_of_getElem? atPort, List.mem_of_getElem? atRank⟩
  have member' : feed' ∈ station'.feeds :=
    List.mem_flatten.mpr ⟨row', List.mem_of_getElem? atPort', List.mem_of_getElem? atRank'⟩
  -- A line's lane tells the station, and within a station every line is read by one feed.
  obtain ⟨lined, pairwise⟩ := laid.own_pairwise here
  have lined' := (laid.own_pairwise there).1 feed' member' own'
  rw [← same] at lined'
  obtain rfl := laid.lined_unique here there (lined feed member own) lined'
  rw [here] at there
  cases there
  unfold Station.feeds at pairwise
  rw [List.pairwise_flatten] at pairwise
  obtain ⟨within, across⟩ := pairwise
  have ports : port = port' := rank_unique_of_pairwise across atPort atPort'
    (fun apart => apart feed (List.mem_of_getElem? atRank) feed' (List.mem_of_getElem? atRank') own own' same)
    fun apart => apart feed' (List.mem_of_getElem? atRank') feed (List.mem_of_getElem? atRank) own' own same.symm
  subst ports
  rw [atPort] at atPort'
  cases atPort'
  exact ⟨rfl, rfl, rank_unique_of_pairwise (within row (List.mem_of_getElem? atPort)) atRank atRank'
    (fun apart => apart own own' same) fun apart => apart own' own same.symm⟩

end

end Patchbay
