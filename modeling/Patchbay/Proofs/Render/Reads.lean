import Patchbay.Proofs.Render.Run

/-! What the nodes of a running plan read.

A node that has not failed is called once in a block, and reads for each edge into
it what the edge's lane carries in that block.
-/

set_option autoImplicit false

namespace Patchbay

variable {ν : Type}

def Block.callAt? (block : Block ν) (position : Nat) : Option (Call ν) :=
  block.calls.find? (·.position = position)

/-- The block's call of the edge's consumer reads a signal for the edge. -/
def Block.Reads (block : Block ν) (patch : Patch ν) (order : List NodeId) (id : EdgeId) (edge : Edge)
    (signal : SignalBuffer) : Prop :=
  ∃ call ∈ block.calls, order[call.position]? = some edge.dest ∧ ∃ (rank : Nat) (source : Source),
    (patch.edgesInto edge.dest edge.destPort)[rank]? = some (id, edge) ∧
    (call.ports.inputs.sources edge.destPort)[rank]? = some source ∧
    source.gain = edge.gain ∧ source.buffer = signal

variable [Node ν] {patch : Patch ν} {options : CompileOptions} {placed : List (Placed ν)} {survey : Survey}

namespace Plan.Charts

variable {plan : Plan ν}

theorem position?_eq (charts : plan.Charts patch placed survey) {position : Nat}
    {place : Placed ν} (item : placed[position]? = some place) :
    plan.monitor.position? place.id = some position := by
  have placement := charts.stations.surveyed.placement
  obtain ⟨inside, same⟩ := List.getElem?_eq_some_iff.mp item
  rw [Monitor.position?, charts.order, List.idxOf?_eq_some_iff]
  refine ⟨by simpa using inside, by simp [same], ?_⟩
  intro earlier less again
  rw [List.getElem_map] at again
  have := placement.position_unique (List.getElem?_eq_getElem (by omega)) item again
  omega

theorem ranked (charts : plan.Charts patch placed survey) (source dest : NodeId)
    (feeds : patch.Feeds source dest) :
    (plan.monitor.position? source).getD 0 < (plan.monitor.position? dest).getD 0 := by
  have surveyed := charts.stations.surveyed
  obtain ⟨id, edge, found, rfl, rfl⟩ := feeds
  obtain ⟨_, node, present⟩ := Patch.Fits.joined surveyed.fits found
  obtain ⟨position, item⟩ := surveyed.placement.exists_position present
  obtain ⟨earlier, less, other, there, feeder⟩ := surveyed.placement.precedes item ⟨id, edge, found, rfl, rfl⟩
  rw [charts.position?_eq item, ← feeder, charts.position?_eq there]
  exact less

theorem isFailed_eq (charts : plan.Charts patch placed survey) {position : Nat}
    {place : Placed ν} (item : placed[position]? = some place) :
    plan.monitor.isFailed place.id = plan.monitor.isFailedAt position := by
  rw [Monitor.isFailed, charts.position?_eq item, Option.any_some]

theorem place_at (charts : plan.Charts patch placed survey) {position : Nat} {id : NodeId}
    (found : plan.monitor.order[position]? = some id) :
    ∃ place, placed[position]? = some place ∧ place.id = id := by
  rwa [charts.order, List.getElem?_map, Option.map_eq_some_iff] at found

theorem routeCompensation?_eq (charts : plan.Charts patch placed survey) {position producer : Nat}
    {place origin : Placed ν} (item : placed[position]? = some place) (source : placed[producer]? = some origin) :
    plan.monitor.routeCompensation? origin.id place.id =
      (survey.graph.link producer position).bind (plan.monitor.latencies.links[·]?) := by
  rw [Monitor.routeCompensation?, charts.position?_eq item, charts.position?_eq source, charts.graph]
  rfl

theorem exists_link (charts : plan.Charts patch placed survey) {source dest : NodeId} {rest : Nat}
    (left : plan.monitor.routeCompensation? source dest = some rest) :
    ∃ producer position link origin place, placed[producer]? = some origin ∧ origin.id = source ∧
      placed[position]? = some place ∧ place.id = dest ∧ survey.graph.link producer position = some link ∧
      plan.monitor.latencies.links[link]? = some rest := by
  have placedAt : ∀ {id position}, plan.monitor.position? id = some position →
      ∃ place, placed[position]? = some place ∧ place.id = id := by
    intro id position found
    obtain ⟨inside, same, _⟩ := List.idxOf?_eq_some_iff.mp found
    exact charts.place_at (List.getElem?_eq_some_iff.mpr ⟨inside, same⟩)
  simp only [Monitor.routeCompensation?, Option.bind_eq_bind, Option.bind_eq_some_iff] at left
  obtain ⟨producer, atSource, position, atDest, link, linked, left⟩ := left
  obtain ⟨origin, source, sourceIs⟩ := placedAt atSource
  obtain ⟨place, item, dest⟩ := placedAt atDest
  exact ⟨producer, position, link, origin, place, source, sourceIs, item, dest, charts.graph ▸ linked, left⟩

end Plan.Charts

namespace Block.Made

variable {format : Format} {block : Block ν} {clock : Nat} {losses : List Nat}

theorem exists_call (made : block.Made format clock losses) {position : Nat} {station : Station}
    (found : block.before.layout.stations[position]? = some station)
    (alive : block.before.monitor.isFailedAt position = false) :
    ∃ call ∈ block.calls, call.position = position := by
  have inside := (List.getElem?_eq_some_iff.mp found).1
  have listed : position ∈ block.calls.map (·.position) := by
    rw [made.2.positions, List.mem_filter, List.mem_range]
    exact ⟨inside, by simp [alive]⟩
  exact List.mem_map.mp listed

theorem callAt?_eq (made : block.Made format clock losses) {call : Call ν} (member : call ∈ block.calls) :
    block.callAt? call.position = some call := by
  have distinct : (block.calls.map (·.position)).Nodup := by
    rw [made.2.positions]
    exact List.nodup_range.filter _
  unfold Block.callAt?
  generalize block.calls = calls at member distinct
  induction calls with
  | nil => cases member
  | cons first rest ih =>
    rw [List.map_cons, List.nodup_cons] at distinct
    rcases List.mem_cons.mp member with rfl | later
    · exact List.find?_cons_of_pos (by simp)
    · have differ : first.position ≠ call.position := fun same =>
        distinct.1 (same ▸ List.mem_map.mpr ⟨call, later, rfl⟩)
      rw [List.find?_cons_of_neg (by simpa using differ)]
      exact ih later distinct.2

theorem alive_of_mem (made : block.Made format clock losses) {call : Call ν} (member : call ∈ block.calls) :
    block.before.monitor.isFailedAt call.position = false := by
  have listed : call.position ∈ block.calls.map (·.position) := List.mem_map.mpr ⟨call, member, rfl⟩
  rw [made.2.positions, List.mem_filter] at listed
  simpa using listed.2

theorem alive_before (made : block.Made format clock losses) {position : Nat}
    (alive : block.after.monitor.isFailedAt position = false) :
    block.before.monitor.isFailedAt position = false ∧
      ∀ call ∈ block.calls, call.position = position → call.fails = false := by
  rw [made.2.monitor.failed, Bool.or_eq_false_iff, List.any_eq_false] at alive
  refine ⟨alive.1, fun call member same => ?_⟩
  simpa [same] using alive.2 call member

theorem alive_after (made : block.Made format clock losses) {call : Call ν} (member : call ∈ block.calls)
    (runs : call.fails = false) : block.after.monitor.isFailedAt call.position = false := by
  rw [made.2.monitor.failed, made.alive_of_mem member, Bool.false_or, List.any_eq_false]
  intro other among
  by_cases same : other.position = call.position
  · have found := made.callAt?_eq among
    rw [same, made.callAt?_eq member] at found
    cases found
    simp [runs]
  · simp [same]

theorem failedAt_eq (made : block.Made format clock losses) {call : Call ν} (member : call ∈ block.calls) :
    block.after.monitor.isFailedAt call.position = call.fails := by
  cases ends : call.fails with
  | false => exact made.alive_after member ends
  | true =>
    rw [made.2.monitor.failed, Bool.or_eq_true, List.any_eq_true]
    exact .inr ⟨call, member, by simp [ends]⟩

theorem not_called (made : block.Made format clock losses) {position : Nat}
    (failed : block.before.monitor.isFailedAt position = true) : ∀ call ∈ block.calls, call.position ≠ position := by
  rintro call member rfl
  have runs := made.alive_of_mem member
  rw [failed] at runs
  cases runs

theorem untouched (before : block.before.Serves patch options placed survey)
    (made : block.Made options.format clock losses) {position lane : Nat} {station : Station}
    (found : block.before.layout.stations[position]? = some station)
    (failed : block.before.monitor.isFailedAt position = true)
    (low : station.base ≤ lane + station.lines.length) (high : lane < station.stop) :
    block.after.lanes[lane]? = block.before.lanes[lane]? := by
  have laid := before.stations
  refine made.2.idle _ fun call member other there => ?_
  have reach : other.base ≤ other.stop := Nat.le_add_right _ _
  rcases Nat.lt_trichotomy call.position position with less | same | more
  · have := laid.apart there found less
    omega
  · exact absurd same (made.not_called failed call member)
  · have := laid.apart found there more
    omega

theorem visit (made : block.Made format clock losses) {call : Call ν} (member : call ∈ block.calls)
    {station : Station} (found : block.before.layout.stations[call.position]? = some station) :
    ∃ lost, Visit format block.before.monitor.latencies.compensation block.before.monitor.latencies.links
      block.context clock block.before.layout.blockSize block.before.nodes block.before.lanes block.after.lanes
      station call lost := by
  obtain ⟨lost, _, _, there, visit⟩ := exists_of_mem_left made.2.visits member
  rw [found] at there
  cases there
  exact ⟨lost, visit⟩

theorem visited (before : block.before.Serves patch options placed survey)
    (made : block.Made options.format clock losses) {call : Call ν} (member : call ∈ block.calls) :
    ∃ place station lost, placed[call.position]? = some place ∧
      block.before.layout.stations[call.position]? = some station ∧
      Visit options.format block.before.monitor.latencies.compensation
        block.before.monitor.latencies.links block.context clock block.before.layout.blockSize
        block.before.nodes block.before.lanes block.after.lanes station call lost := by
  obtain ⟨lost, _, station, found, visit⟩ := exists_of_mem_left made.2.visits member
  obtain ⟨place, item, _⟩ := before.stations.place_of found
  exact ⟨place, station, lost, item, found, visit⟩

section

variable {call : Call ν} {station : Station}

theorem output_takes (made : block.Made format clock losses)
    (member : call ∈ block.calls) (found : block.before.layout.stations[call.position]? = some station)
    (runs : call.fails = false) {port : Nat} {type : PortType} (typed : station.outputs[port]? = some type) :
    ∃ signal wanted lost, call.written[port]? = some signal ∧ format.Shapes type signal ∧
      block.before.monitor.latencies.compensation[call.position]? = some wanted ∧
      Takes clock block.before.layout.blockSize block.before.lanes block.after.lanes (station.base + port)
        signal (min wanted station.delayCapacity) lost := by
  obtain ⟨_, visit⟩ := made.visit member found
  obtain ⟨_, waits, _, emits, _⟩ := visit.traffic
  cases emits with
  | failed fails => exact absurd fails (by simp [runs])
  | @delayed wanted _ _ published takes =>
    have inside : port < call.written.size := by
      rw [visit.written.size]
      exact (List.getElem?_eq_some_iff.mp typed).1
    have signal := Array.getElem?_eq_getElem inside
    have among : (call.written[port], station.base + port) ∈ call.written.toList.zipIdx station.base :=
      mem_zipIdx_toList.mpr ⟨port, signal, rfl⟩
    obtain ⟨lost, _, takes⟩ := exists_of_mem_left takes among
    exact ⟨_, wanted, lost, signal, visit.written.shapes port _ _ typed signal, published, takes⟩

theorem silenced (made : block.Made format clock losses)
    (member : call ∈ block.calls) (found : block.before.layout.stations[call.position]? = some station)
    (fails : call.fails = true) {port : Nat} {type : PortType} (typed : station.outputs[port]? = some type) :
    ∃ item, block.after.lanes[station.base + port]? = some item ∧ item.buffer = format.silence type := by
  obtain ⟨_, visit⟩ := made.visit member found
  have undone : call.outcome ≠ .done := by
    rintro done
    simp [Call.fails, done] at fails
  have written := Call.written_undone undone visit.written
  obtain ⟨_, _, _, emits, _⟩ := visit.traffic
  cases emits with
  | delayed runs => exact absurd fails (by simp [runs])
  | failed _ stored =>
    obtain ⟨old, _, after⟩ := stored (format.silence type, station.base + port)
      (mem_zipIdx_toList.mpr ⟨port, by simp [written, typed], rfl⟩)
    exact ⟨_, after, rfl⟩

theorem line_takes (ready : block.before.Ready format) (made : block.Made format clock losses)
    (member : call ∈ block.calls) (found : block.before.layout.stations[call.position]? = some station)
    {line : RouteLine} (among : line ∈ station.lines) :
    ∃ wanted source lost, block.before.monitor.latencies.links[line.link]? = some wanted ∧
      block.after.lanes[line.source]? = some source ∧ format.Shapes line.type source.buffer ∧
      Takes clock block.before.layout.blockSize block.before.lanes block.after.lanes line.lane source.buffer
        (min wanted line.capacity) lost := by
  obtain ⟨_, visit⟩ := made.visit member found
  obtain ⟨fills, _, filled, _, _⟩ := visit.traffic
  obtain ⟨lost, _, wanted, source, published, atSource, takes⟩ := exists_of_mem_left filled among
  obtain ⟨room, slot⟩ := (ready.sound.slotted station (List.mem_of_getElem? found)).sources line among
  exact ⟨wanted, source, lost, published, atSource, made.2.furnished.shapes slot atSource, takes⟩

end

/-- What the consumer of a live edge reads for it, as long as it runs. -/
theorem reads (before : block.before.Serves patch options placed survey)
    (made : block.Made options.format clock losses) {id : EdgeId} {edge : Edge}
    (found : patch.edge? id = some edge) (running : block.before.monitor.isFailed edge.dest = false) :
    ∃ position producer station type feed lane,
      block.before.monitor.order[position]? = some edge.dest ∧
      block.before.monitor.order[producer]? = some edge.source ∧
      block.before.layout.stations[position]? = some station ∧
      edge.Routed placed survey block.before.layout.stations station position producer type feed ∧
      block.before.monitor.isFailedAt position = false ∧ block.after.lanes[feed.lane]? = some lane ∧
      block.Reads patch block.before.monitor.order id edge lane.buffer := by
  obtain ⟨position, rank, place, station, row, feed, item, dest, atStation, inRow, atRank, feedAt,
    producer, type, routed⟩ := before.stations.exists_routed found
  rw [← dest, before.isFailed_eq item] at running
  obtain ⟨call, member, rfl⟩ := made.exists_call atStation running
  obtain ⟨_, visit⟩ := made.visit member atStation
  -- What is shown stands at the port and the rank of the edge's feed.
  obtain ⟨sources, atPort, shown⟩ := exists_getElem?_left visit.shown inRow
  obtain ⟨source, atSource, lane, atLane, shows⟩ := exists_getElem?_left shown feedAt
  obtain ⟨origin, atOrigin, sourceIs⟩ := routed.source
  have here : block.before.monitor.order[call.position]? = some edge.dest := by
    rw [before.order, List.getElem?_map, item, ← dest]
    rfl
  refine ⟨call.position, producer, station, type, feed, lane, here, ?_, atStation, routed, running, atLane,
    call, member, here, rank, ⟨lane.buffer, feed.gain⟩, atRank, ?_, routed.gain, rfl⟩
  · rw [before.order, List.getElem?_map, atOrigin, ← sourceIs]
    rfl
  · rw [Inputs.sources, atPort, Option.getD_some, atSource, shows]

end Block.Made

end Patchbay
