import Patchbay.Proofs.Node.Builtin
import Patchbay.Proofs.Render.Reads

/-! A running plan does what its patch says.

In every block each live node that has not failed is called once, behind all that
feed it. What it is shown at a port are the edges into the port, and every edge
shows its producer's signal of the same block.
-/

set_option autoImplicit false

namespace Patchbay

variable {ν : Type} [Node ν]

/-- A render order of a patch: every live node once, behind all that feed it. -/
structure Patch.OrderedBy (patch : Patch ν) (order : List NodeId) : Prop where
  nodup : order.Nodup
  mem_iff : ∀ {id}, id ∈ order ↔ ∃ node, patch.node? id = some node
  precedes : ∀ {source dest} {first second : Nat}, patch.Feeds source dest → order[first]? = some source →
    order[second]? = some dest → first < second

/-- The port that a patch sounds through: the first audio output of the sink, or of
the last node in order that has an audio output. -/
structure Patch.SoundsAt (patch : Patch ν) (order : List NodeId) (id : NodeId) (port : Nat) : Prop where
  audio : ∃ spec, patch.OutputAt id port spec ∧ spec.kind = .audio
  first : ∀ earlier < port, ∀ spec, patch.OutputAt id earlier spec → spec.kind ≠ .audio
  chosen : ∀ sink, patch.sink = some sink → id = sink
  last : patch.sink = none → ∀ (position later : Nat) other node, order[position]? = some id →
    position < later → order[later]? = some other → patch.node? other = some node →
    ¬ HasAudioOutput node

structure Patch.ListsInto (patch : Patch ν) (id : NodeId) (port : Nat) (entries : List (EdgeId × Edge)) :
    Prop where
  mem_iff : ∀ {entry}, entry ∈ entries ↔ patch.edge? entry.1 = some entry.2 ∧ entry.2.dest = id ∧
    entry.2.destPort = port
  ascending : entries.Pairwise fun first second => first.1.index < second.1.index

structure Layout.LineOf (layout : Layout) (feed : Feed) (line : RouteLine) : Prop where
  member : ∃ station ∈ layout.stations, line ∈ station.lines
  source : line.source = feed.source
  lane : line.lane = feed.lane

/-- The line was filled with a signal in this block, and delayed it by what is
published for the two nodes, as far as the line reaches. -/
def Block.Fills (block : Block ν) (edge : Edge) (line : RouteLine) (signal filled : SignalBuffer) : Prop :=
  ∃ clock wanted old next lost, block.context.clock = .ok clock ∧
    block.before.monitor.routeCompensation? edge.source edge.dest = some wanted ∧
    block.before.lanes[line.lane]? = some old ∧ block.after.lanes[line.lane]? = some next ∧
    next.buffer = filled ∧ old.delay.apply signal (min wanted line.capacity) clock
      block.before.layout.blockSize = .ok (lost, filled, next.delay)

/-- What a block shows of an edge: the edge's gain with the producer's signal, which
went through the edge's own line if the edge has one. -/
structure Block.Shows (block : Block ν) (edge : Edge) (feed : Feed) (source : Source) : Prop where
  gain : source.gain = edge.gain
  carried : (block.after.lanes[feed.lane]?).map (·.buffer) = some source.buffer
  produced : ∃ signal, block.after.output? edge.source edge.sourcePort = some signal ∧
    (feed.lane = feed.source → source.buffer = signal) ∧
    (feed.lane ≠ feed.source → ∃ line, block.before.layout.LineOf feed line ∧
      block.Fills edge line signal source.buffer)

/-- What one block of a patch does, when every edge has the feed of its route. -/
structure Block.Refines (patch : Patch ν) (order : List NodeId) (route : EdgeId → Feed)
    (block : Block ν) : Prop where
  calls : block.calls.map (fun call => order[call.position]?) =
    (order.filter fun id => !block.before.monitor.isFailed id).map some
  invoked : ∀ call ∈ block.calls, block.before.nodes[call.position]? = some call.node ∧
    Node.process block.context call.node call.ports = .ok (call.outcome, call.next, call.reply) ∧
    block.after.nodes[call.position]? = some call.next
  shown : ∀ call ∈ block.calls, ∀ id, order[call.position]? = some id → ∀ port, ∃ entries,
    patch.ListsInto id port entries ∧
    List.Forall₂ (fun entry source => block.Shows entry.2 (route entry.1) source) entries
      (call.ports.inputs.sources port)
  failed : ∀ id, block.after.monitor.isFailed id = true ↔ block.before.monitor.isFailed id = true ∨
    ∃ call ∈ block.calls, order[call.position]? = some id ∧ call.fails = true
  output : ∃ id port, patch.SoundsAt order id port ∧
    block.after.output? id port = some (.audio block.rendered.output)

namespace Plan.Serves

variable {patch : Patch ν} {options : CompileOptions} {placed : List (Placed ν)} {survey : Survey}
  {plan : Plan ν}

theorem orderedBy (serves : plan.Serves patch options placed survey) :
    patch.OrderedBy plan.monitor.order := by
  have placement := serves.stations.surveyed.placement
  rw [serves.order]
  refine ⟨placement.nodup, ?_, ?_⟩
  · intro id
    rw [List.mem_map]
    constructor
    · rintro ⟨place, member, rfl⟩
      exact ⟨_, placement.present place member⟩
    · rintro ⟨node, present⟩
      exact ⟨_, placement.complete present, rfl⟩
  · intro source dest first second feeds here there
    simp only [List.getElem?_map, Option.map_eq_some_iff] at here there
    obtain ⟨place, item, rfl⟩ := here
    obtain ⟨other, atSecond, rfl⟩ := there
    obtain ⟨earlier, less, again, found, same⟩ := placement.precedes atSecond feeds
    rw [placement.position_unique item found same.symm]
    exact less

theorem output?_eq (serves : plan.Serves patch options placed survey) {position port : Nat}
    {place : Placed ν} {station : Station} (item : placed[position]? = some place)
    (found : plan.layout.stations[position]? = some station) (inside : port < station.outputs.length) :
    ∃ lane, plan.lanes[station.base + port]? = some lane ∧
      plan.output? place.id port = some lane.buffer := by
  have slot := (serves.ready.sound.slotted station (List.mem_of_getElem? found)).outputs
    (List.getElem?_eq_getElem inside)
  have within := (List.getElem?_eq_some_iff.mp slot).1
  rw [← serves.ready.furnished.size] at within
  refine ⟨_, Array.getElem?_eq_getElem within, ?_⟩
  simp only [Plan.output?, serves.position?_eq item, found, Option.bind_eq_bind, Option.bind_some,
    if_pos inside, Array.getElem?_eq_getElem within, Option.pure_def]

end Plan.Serves

/-! ## Routes -/

def Patch.RouteOf (patch : Patch ν) (order : List NodeId) (stations : List Station) (id : EdgeId)
    (feed : Feed) : Prop :=
  ∃ (edge : Edge) (position rank : Nat) (station : Station) (row : List Feed),
    patch.edge? id = some edge ∧ order[position]? = some edge.dest ∧
    stations[position]? = some station ∧ station.inputs[edge.destPort]? = some row ∧
    (patch.edgesInto edge.dest edge.destPort)[rank]? = some (id, edge) ∧ row[rank]? = some feed

section

variable {patch : Patch ν} {placed : List (Placed ν)} {survey : Survey} {stations : List Station}

omit [Node ν] in
theorem Patch.edgesInto_rank_unique {dest : NodeId} {port first second : Nat} {id : EdgeId}
    {edge other : Edge} (here : (patch.edgesInto dest port)[first]? = some (id, edge))
    (there : (patch.edgesInto dest port)[second]? = some (id, other)) : first = second :=
  rank_unique_of_pairwise (patch.edgesInto_pairwise dest port) here there (Nat.lt_irrefl id.index)
    (Nat.lt_irrefl id.index)

omit [Node ν] in
theorem Patch.RouteOf.unique {order : List NodeId} (nodup : order.Nodup) {id : EdgeId} {feed other : Feed}
    (first : patch.RouteOf order stations id feed) (second : patch.RouteOf order stations id other) :
    feed = other := by
  obtain ⟨edge, position, rank, station, row, found, atDest, atStation, atPort, inRow, atRank⟩ := first
  obtain ⟨edge', position', rank', station', row', found', atDest', atStation', atPort', inRow', atRank'⟩ :=
    second
  rw [found] at found'
  cases found'
  obtain rfl : position = position' := by
    obtain ⟨inside, same⟩ := List.getElem?_eq_some_iff.mp atDest
    obtain ⟨within, again⟩ := List.getElem?_eq_some_iff.mp atDest'
    exact (nodup.getElem_inj_iff).mp (same.trans again.symm)
  rw [atStation] at atStation'
  cases atStation'
  rw [atPort] at atPort'
  cases atPort'
  obtain rfl := Patch.edgesInto_rank_unique inRow inRow'
  rw [atRank] at atRank'
  exact Option.some.inj atRank'

/-- Two edges never share a lane that is not their producer's. -/
theorem Stations.own_exclusive (laid : Stations patch placed survey stations) {id other : EdgeId}
    {feed feed' : Feed} (here : patch.RouteOf (placed.map (·.id)) stations id feed)
    (there : patch.RouteOf (placed.map (·.id)) stations other feed') (own : feed.lane ≠ feed.source)
    (same : feed.lane = feed'.lane) : id = other := by
  obtain ⟨edge, position, rank, station, row, _, atDest, atStation, atPort, inRow, atRank⟩ := here
  obtain ⟨edge', position', rank', station', row', _, atDest', atStation', atPort', inRow', atRank'⟩ := there
  have member : feed ∈ station.feeds :=
    List.mem_flatten.mpr ⟨row, List.mem_of_getElem? atPort, List.mem_of_getElem? atRank⟩
  by_cases shared : feed'.lane = feed'.source
  · -- The other edge's lane is an output, which no line is.
    rw [List.getElem?_map, Option.map_eq_some_iff] at atDest'
    obtain ⟨place, item, dest⟩ := atDest'
    rw [← dest] at inRow'
    have routes := (laid.routes item atStation').2 _ _ atPort'
    obtain ⟨_, feedAt, producer, type, routed⟩ := exists_getElem?_left routes inRow'
    cases atRank'.symm.trans feedAt
    obtain ⟨upstream, atSource, output, lane⟩ := routed.output
    refine absurd ((laid.own_pairwise atStation).1 feed member own) ?_
    rw [same, shared, lane]
    exact laid.lined_not_output atStation atSource (List.getElem?_eq_some_iff.mp output).1
  · obtain ⟨rfl, ports, rfl⟩ := laid.own_unique atStation atPort atRank atStation' atPort' atRank' own
      shared same
    rw [atDest] at atDest'
    rw [← Option.some.inj atDest', ← ports, inRow] at inRow'
    cases inRow'
    rfl

theorem Stations.exists_route (laid : Stations patch placed survey stations) {id : EdgeId} {edge : Edge}
    (found : patch.edge? id = some edge) : ∃ feed, patch.RouteOf (placed.map (·.id)) stations id feed := by
  obtain ⟨position, rank, place, station, row, feed, item, dest, atStation, inRow, atRank, feedAt, _⟩ :=
    laid.exists_routed found
  refine ⟨feed, edge, position, rank, station, row, found, ?_, atStation, inRow, atRank, feedAt⟩
  rw [List.getElem?_map, item, ← dest]
  rfl

end

/-! ## Blocks -/

section

variable {patch : Patch ν} {options : CompileOptions} {placed : List (Placed ν)} {survey : Survey}
  {block : Block ν} {clock : Nat} {losses : List Nat}

theorem Block.Made.shows (before : block.before.Serves patch options placed survey)
    (after : block.after.Serves patch options placed survey)
    (made : block.Made options.format clock losses) {call : Call ν} {station : Station} {lost : Nat}
    {edge : Edge} {producer : Nat} {type : PortType} {feed : Feed} {source : Source}
    {place : Placed ν} (item : placed[call.position]? = some place) (dest : edge.dest = place.id)
    (there : block.before.layout.stations[call.position]? = some station)
    (visit : Visit options.format block.before.monitor.latencies.compensation
      block.before.monitor.latencies.links block.context clock block.before.layout.blockSize
      block.before.nodes block.before.lanes block.after.lanes station call lost)
    (routed : edge.Routed placed survey block.before.layout.stations station call.position producer type
      feed) (shown : feed.Shows block.after.lanes source) : block.Shows edge feed source := by
  obtain ⟨lane, found, rfl⟩ := shown
  obtain ⟨place', atSource, origin⟩ := routed.source
  obtain ⟨upstream, atUpstream, output, base⟩ := routed.output
  rw [← made.2.layout] at atUpstream
  obtain ⟨producerLane, atProducer, signal⟩ :=
    after.output?_eq atSource atUpstream (List.getElem?_eq_some_iff.mp output).1
  rw [← base] at atProducer
  rw [origin] at signal
  -- Without a line, the edge shares the producer's lane; otherwise its line was filled before the call.
  refine ⟨routed.gain, by rw [found]; rfl, producerLane.buffer, signal, ?_, ?_⟩
  · intro shared
    rw [shared, atProducer] at found
    exact congrArg Lane.buffer (Option.some.inj found).symm
  · intro own
    cases routed.reads with
    | shared same _ => exact absurd same own
    | @own link atLink _ member =>
      obtain ⟨fills, waits, filled, _, _⟩ := visit.traffic
      obtain ⟨spill, _, wanted, carried, published, atCarried, old, next, was, is, applied⟩ :=
        exists_of_mem_left filled member
      dsimp only at published atCarried was is applied
      rw [atProducer] at atCarried
      cases atCarried
      rw [found] at is
      cases is
      refine ⟨_, ⟨⟨station, List.mem_of_getElem? there, member⟩, rfl, rfl⟩, clock, wanted, old, lane, spill,
        made.1, ?_, was, found, rfl, applied⟩
      have here := before.position?_eq item
      have there := before.position?_eq atSource
      rw [origin] at there
      rw [← dest] at here
      simp only [Monitor.routeCompensation?, here, there, before.graph, atLink, published,
        Option.bind_eq_bind, Option.bind_some]

theorem Stations.shown {stations : List Station} (laid : Stations patch placed survey stations) {position : Nat}
    {place : Placed ν} {station : Station} (item : placed[position]? = some place)
    (found : stations[position]? = some station) {lanes : Array Lane} {inputs : Inputs}
    (shown : List.Forall₂ (List.Forall₂ (Feed.Shows lanes)) station.inputs inputs.ports) (port : Nat) :
    List.Forall₂ (fun entry source => entry.2.dest = place.id ∧ ∃ producer type feed,
        entry.2.Routed placed survey stations station position producer type feed ∧
        patch.RouteOf (placed.map (·.id)) stations entry.1 feed ∧ feed.Shows lanes source)
      (patch.edgesInto place.id port) (inputs.sources port) := by
  obtain ⟨count, rows⟩ := laid.routes item found
  have length := shown.length_eq
  unfold Inputs.sources
  cases atPort : station.inputs[port]? with
  | some row =>
    obtain ⟨sources, atSources, shown⟩ := exists_getElem?_left shown atPort
    rw [atSources, Option.getD_some]
    refine forall₂_comp ?_ (forall₂_ranked (rows port row atPort)) shown
    rintro ⟨id, edge⟩ feed source ⟨⟨producer, type, routed⟩, rank, atRank, feedAt⟩ shown
    obtain ⟨edgeAt, dest, destPort⟩ := Patch.mem_edgesInto.mp (List.mem_of_getElem? atRank)
    dsimp only at edgeAt dest destPort routed
    refine ⟨dest, producer, type, feed, routed, ⟨edge, position, rank, station, _, edgeAt, ?_, found, ?_, ?_, feedAt⟩,
      shown⟩
    · rw [List.getElem?_map, item, dest]
      rfl
    · rw [destPort]
      exact atPort
    · rw [dest, destPort, atRank]
  | none =>
    have outside := List.getElem?_eq_none_iff.mp atPort
    -- No edge leads into a port that the node does not have.
    have none : patch.edgesInto place.id port = [] := by
      refine List.eq_nil_iff_forall_not_mem.mpr ?_
      rintro ⟨id, edge⟩ member
      obtain ⟨edgeAt, dest, destPort⟩ := Patch.mem_edgesInto.mp member
      obtain ⟨_, input, _, ⟨node, present, atPort⟩, _⟩ := laid.surveyed.fits id edge edgeAt
      rw [dest, laid.surveyed.placement.present place (List.mem_of_getElem? item)] at present
      cases present
      have := (List.getElem?_eq_some_iff.mp atPort).1
      dsimp only at destPort
      omega
    rw [none, List.getElem?_eq_none (by omega)]
    exact .nil

theorem Block.Made.shown (before : block.before.Serves patch options placed survey)
    (made : block.Made options.format clock losses) {route : EdgeId → Feed}
    (routes : ∀ id feed, patch.RouteOf (placed.map (·.id)) block.before.layout.stations id feed →
      feed = route id) {call : Call ν} {place : Placed ν} {station : Station} {lost : Nat}
    (item : placed[call.position]? = some place)
    (found : block.before.layout.stations[call.position]? = some station)
    (visit : Visit options.format block.before.monitor.latencies.compensation
      block.before.monitor.latencies.links block.context clock block.before.layout.blockSize
      block.before.nodes block.before.lanes block.after.lanes station call lost) (port : Nat) :
    List.Forall₂ (fun entry source => block.Shows entry.2 (route entry.1) source)
      (patch.edgesInto place.id port) (call.ports.inputs.sources port) := by
  refine (before.stations.shown item found visit.shown port).imp ?_
  rintro ⟨id, edge⟩ source ⟨dest, producer, type, feed, routed, routeOf, shown⟩
  rw [← routes id feed routeOf]
  exact made.shows before (before.rendered made.2) item dest found visit routed shown

theorem Block.Made.calls_placed (before : block.before.Serves patch options placed survey)
    (made : block.Made options.format clock losses) :
    block.calls.map (fun call => (placed.map (·.id))[call.position]?) =
      ((placed.map (·.id)).filter fun id => !block.before.monitor.isFailed id).map some := by
  have positions := congrArg (List.map ((placed.map (·.id))[·]?)) made.2.positions
  rw [List.map_map] at positions
  refine positions.trans ?_
  have length : block.before.layout.stations.length = (placed.map (·.id)).length := by
    rw [before.stations.length, List.length_map]
  rw [length]
  refine map_filter_range fun position id found => ?_
  rw [List.getElem?_map, Option.map_eq_some_iff] at found
  obtain ⟨place, item, rfl⟩ := found
  rw [before.isFailed_eq item]

theorem Block.Made.isFailed_iff (before : block.before.Serves patch options placed survey)
    (made : block.Made options.format clock losses) (id : NodeId) :
    block.after.monitor.isFailed id = true ↔ block.before.monitor.isFailed id = true ∨
      ∃ call ∈ block.calls, (placed.map (·.id))[call.position]? = some id ∧ call.fails = true := by
  have placement := before.stations.surveyed.placement
  rw [Monitor.isFailed, Monitor.isFailed, Monitor.position?, made.2.monitor.order, ← Monitor.position?]
  -- An id without a place has no mark, before the block or after it.
  by_cases placedAt : ∃ (position : Nat) (place : Placed ν), placed[position]? = some place ∧ place.id = id
  · obtain ⟨position, place, item, rfl⟩ := placedAt
    rw [before.position?_eq item, Option.any_some, Option.any_some, made.2.monitor.failed]
    rw [Bool.or_eq_true, List.any_eq_true]
    refine or_congr_right (exists_congr fun call => and_congr_right fun _ => ?_)
    rw [Bool.and_eq_true, decide_eq_true_eq]
    refine and_congr_left fun _ => ?_
    rw [List.getElem?_map, Option.map_eq_some_iff]
    constructor
    · intro same
      exact ⟨place, same ▸ item, rfl⟩
    · rintro ⟨other, there, same⟩
      exact placement.position_unique there item same
  · have absent : block.before.monitor.position? id = none := by
      rw [Monitor.position?, before.order, List.idxOf?_eq_none_iff]
      intro member
      obtain ⟨place, among, same⟩ := List.mem_map.mp member
      obtain ⟨position, item⟩ := List.mem_iff_getElem?.mp among
      exact placedAt ⟨position, place, item, same⟩
    rw [absent, Option.any_none, Option.any_none]
    refine ⟨fun never => absurd never Bool.false_ne_true, ?_⟩
    rintro (never | ⟨call, _, atId, _⟩)
    · exact never
    · rw [List.getElem?_map, Option.map_eq_some_iff] at atId
      obtain ⟨place, item, same⟩ := atId
      exact absurd ⟨call.position, place, item, same⟩ placedAt

theorem SinkAt.soundsAt (placement : Placement patch placed) {position port channels : Nat} {place : Placed ν}
    (sinkAt : SinkAt patch placed position port channels place) :
    patch.SoundsAt (placed.map (·.id)) place.id port := by
  obtain ⟨spec, atPort, type⟩ := sinkAt.audio
  have present := placement.present place (List.mem_of_getElem? sinkAt.item)
  refine ⟨⟨spec, ⟨_, present, atPort⟩, by rw [PortSpec.kind, type]; rfl⟩, ?_, fun id => sinkAt.chosen id, ?_⟩
  · rintro earlier less other ⟨node, there, atEarlier⟩
    rw [present] at there
    cases there
    exact sinkAt.first earlier less other atEarlier
  · intro none first later other node atFirst less atLater there
    rw [List.getElem?_map, Option.map_eq_some_iff] at atFirst atLater
    obtain ⟨_, item, same⟩ := atFirst
    obtain ⟨behind, atBehind, rfl⟩ := atLater
    rw [placement.position_unique item sinkAt.item same] at less
    have here := placement.present behind (List.mem_of_getElem? atBehind)
    rw [there] at here
    cases here
    exact sinkAt.last none later less behind atBehind

theorem Block.Made.sounds (before : block.before.Serves patch options placed survey)
    (made : block.Made options.format clock losses) :
    ∃ id port, patch.SoundsAt (placed.map (·.id)) id port ∧
      block.after.output? id port = some (.audio block.rendered.output) := by
  obtain ⟨position, port, channels, place, station, sinkAt, found, lane⟩ := before.sink
  obtain ⟨spec, atPort, type⟩ := sinkAt.audio
  obtain ⟨other, again, stationed⟩ := before.stations.stationed sinkAt.item
  rw [found] at again
  cases again
  have inside : port < station.outputs.length := by
    rw [stationed.outputs, List.length_map]
    exact (List.getElem?_eq_some_iff.mp atPort).1
  obtain ⟨carried, atLane, output⟩ :=
    (before.rendered made.2).output?_eq sinkAt.item (made.2.layout ▸ found) inside
  obtain ⟨sink, atSink, answer⟩ := made.2.output
  rw [lane, atLane] at atSink
  cases atSink
  exact ⟨place.id, port, sinkAt.soundsAt before.stations.surveyed.placement, output.trans (congrArg some answer)⟩

theorem Block.Made.refines (before : block.before.Serves patch options placed survey)
    (made : block.Made options.format clock losses) {route : EdgeId → Feed}
    (routes : ∀ id feed, patch.RouteOf (placed.map (·.id)) block.before.layout.stations id feed →
      feed = route id) : block.Refines patch (placed.map (·.id)) route where
  calls := made.calls_placed before
  invoked := by
    intro call member
    obtain ⟨_, _, _, _, _, visit⟩ := made.visited before member
    exact ⟨visit.node, visit.answer, made.2.stepped call member⟩
  shown := by
    intro call member id atId port
    obtain ⟨place, station, lost, item, found, visit⟩ := made.visited before member
    rw [List.getElem?_map, item] at atId
    cases atId
    exact ⟨_, ⟨Patch.mem_edgesInto, Patch.edgesInto_pairwise _ _⟩,
      made.shown before routes item found visit port⟩
  failed := made.isFailed_iff before
  output := made.sounds before

end

/-- Every block of every run of a compiled plan does what the patch says. -/
theorem compiled_refines {patch : Patch ν} {options : CompileOptions} {plan last : Plan ν}
    {blocks : List (Block ν)} (compiled : compile patch options = .ok (.ok plan))
    (run : Run Plan.Touched plan blocks last)
    (typed : ∀ block ∈ blocks, ∀ call ∈ block.calls, call.Typed) :
    patch.OrderedBy plan.monitor.order ∧ ∃ route : EdgeId → Feed,
      (∀ id other edge edge', patch.edge? id = some edge → patch.edge? other = some edge' →
        (route id).lane ≠ (route id).source → (route id).lane = (route other).lane → id = other) ∧
      ∀ block ∈ blocks, block.Refines patch plan.monitor.order route := by
  obtain ⟨placed, survey, origin⟩ := compile_plan compiled
  have serves := origin.serves
  have laid := serves.stations
  have nodup := serves.orderedBy.nodup
  have chosen : ∀ id, ∃ feed, ∀ other,
      patch.RouteOf plan.monitor.order plan.layout.stations id other → other = feed := by
    intro id
    by_cases exists_ : ∃ feed, patch.RouteOf plan.monitor.order plan.layout.stations id feed
    · obtain ⟨feed, routed⟩ := exists_
      exact ⟨feed, fun other also => also.unique nodup routed⟩
    · exact ⟨⟨0, 0, 0⟩, fun other also => absurd ⟨other, also⟩ exists_⟩
  choose route only using chosen
  obtain ⟨_, all⟩ := run.serves serves fun block member call among =>
    (typed block member call among).orderly options.format
  refine ⟨serves.orderedBy, route, ?_, ?_⟩
  · intro id other edge edge' found found'
    obtain ⟨feed, routed⟩ := laid.exists_route found
    obtain ⟨feed', routed'⟩ := laid.exists_route found'
    rw [← only id feed (serves.order ▸ routed), ← only other feed' (serves.order ▸ routed')]
    exact laid.own_exclusive routed routed'
  · intro block member
    obtain ⟨before, layout, clock, losses, made⟩ := all block member
    rw [serves.order]
    refine made.refines before fun id feed routed => only id feed ?_
    rw [serves.order, ← layout]
    exact routed

/-! ## A small patch -/

theorem constantIntoGain_whole {id : NodeId} {node : Builtin} (found : constantIntoGain.node? id = some node) :
    node.Whole := by
  obtain ⟨_ | _ | _⟩ := id <;> cases found <;> trivial

theorem constantIntoGain_renders : ∃ (plan : Plan Builtin) (block : Block Builtin),
    compile constantIntoGain { blockSize := 4 } = .ok (.ok plan) ∧
      Run Eq plan [block] block.after := by
  obtain ⟨plan, compiled, ⟨calls, rendered, after, moved⟩, renders⟩ :
      ∃ plan, compile constantIntoGain { blockSize := 4 } = .ok (.ok plan) ∧
        ∃ block, Engine.new.render plan (.start 48000 4) = .ok block := by decide +kernel
  exact ⟨plan, ⟨.new, plan, .start 48000 4, calls, rendered, after, moved⟩, compiled, .render .start rfl renders⟩

theorem constantIntoGain_refines : ∃ (plan : Plan Builtin) (block : Block Builtin),
    compile constantIntoGain { blockSize := 4 } = .ok (.ok plan) ∧
      Run Plan.Touched plan [block] block.after ∧ (∀ call ∈ block.calls, call.Typed) ∧
      ∃ route, block.Refines constantIntoGain plan.monitor.order route := by
  obtain ⟨plan, block, compiled, run⟩ := constantIntoGain_renders
  obtain ⟨placed, survey, origin⟩ := compile_plan compiled
  obtain ⟨_, _, typed⟩ := run.typed Builtin.abides (fun same => same ▸ .adjusted (.refl _))
    (fun same kept => same ▸ kept) origin.serves (origin.keeps fun _ _ => constantIntoGain_whole)
  have touched : Run Plan.Touched plan [block] block.after := run.mono fun plan after same => by
    subst same
    exact .adjusted (.refl plan)
  obtain ⟨_, route, _, refines⟩ := compiled_refines compiled touched typed
  exact ⟨plan, block, compiled, touched, typed block List.mem_cons_self, route,
    refines block List.mem_cons_self⟩

end Patchbay
