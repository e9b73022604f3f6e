import Patchbay.Proofs.Render.Outputs

/-! One station in one block.

The lines into the station are filled, its node is shown what its feeds carry,
and its outputs go through their lanes' delay lines. Nothing outside the
station's lanes changes.
-/

set_option autoImplicit false

namespace Patchbay

variable {ν : Type}

def Feed.Shows (lanes : Array Lane) (feed : Feed) (source : Source) : Prop :=
  ∃ lane, lanes[feed.lane]? = some lane ∧ ⟨lane.buffer, feed.gain⟩ = source

namespace Progress

variable {format : Format} {slots : List (PortType × Nat)} {clock blockSize : Nat} {state next : Progress ν}

/-! ## The steps of a visit -/

theorem source_eq_ok {lanes : Array Lane} {base : Nat} {feed : Feed} {shown : Source} :
    source lanes base feed = .ok shown ↔ feed.lane < base ∧ feed.Shows lanes shown := by
  unfold source Feed.Shows
  by_cases below : base ≤ feed.lane
  · rw [if_pos below]
    constructor
    · intro answer
      cases answer
    · rintro ⟨less, _⟩
      omega
  · rw [if_neg below]
    simp only [pure_eq_ok, bind_eq_ok, itemAt_eq_ok]
    constructor
    · intro found
      exact ⟨by omega, found⟩
    · exact And.right

theorem blankOutputs_eq {lanes : Array Lane} {station : Station} {blank : Array SignalBuffer}
    (furnished : format.Furnished slots lanes) (slotted : station.Slotted slots)
    (answer : blankOutputs lanes station = .ok blank) :
    station.stop ≤ lanes.size ∧ blank = (station.outputs.map format.silence).toArray := by
  unfold blankOutputs at answer
  split at answer
  · cases answer
  · have room : station.stop ≤ lanes.size := by omega
    cases answer
    refine ⟨room, Array.ext (by simp [Station.stop] at room ⊢; omega) ?_⟩
    intro port here there
    have inside : port < station.outputs.length := by simpa using there
    have typed := List.getElem?_eq_getElem inside
    have within : station.base + port < lanes.size := by
      unfold Station.stop at room
      omega
    have found := Array.getElem?_eq_getElem within
    simpa using (furnished.shapes (slotted.outputs typed) found).clear_eq

/-- What a node is called with. -/
structure Arranged (format : Format) (slots : List (PortType × Nat)) (clock blockSize position start : Nat)
    (station : Station) (state : Progress ν) (node : ν) (ports : Ports) (next : Progress ν)
    (fills : List Nat) : Prop where
  node : state.nodes[position]? = some node
  nodes : next.nodes = state.nodes
  space : next.space = state.space
  outside : SameOutside start station.base state.lanes next.lanes
  furnished : format.Furnished slots next.lanes
  room : station.stop ≤ next.lanes.size
  filled : List.Forall₂ (RouteLine.Filled state.monitor.latencies.links clock blockSize state.lanes
    next.lanes) station.lines fills
  counts : state.monitor.Counts fills.sum next.monitor
  shown : List.Forall₂ (List.Forall₂ (Feed.Shows next.lanes)) station.inputs ports.inputs.ports
  merges : ports.inputs.space = state.space
  fresh : ports.inputs.dropped = 0
  blank : ports.outputs = (station.outputs.map format.silence).toArray

theorem arrange_spec {position start : Nat} {station : Station} {node : ν} {ports : Ports}
    (furnished : format.Furnished slots state.lanes) (numbers : station.Numbers start)
    (slotted : station.Slotted slots)
    (answer : state.arrange clock blockSize position station = .ok (node, ports, next)) :
    ∃ fills, Arranged format slots clock blockSize position start station state node ports next fills := by
  simp only [arrange, bind_eq_ok, pure_eq_ok, Prod.mk.injEq, itemAt_eq_ok, mapM_eq_ok] at answer
  obtain ⟨middle, filled, sources, shown, blank, cleared, _, atNode, rfl, rfl, rfl⟩ := answer
  obtain ⟨nodes, space, outside, furnished, fills, all, counts⟩ := fillLines_spec start (le_refl start)
    furnished numbers.lines slotted.lines
    (fun line member => ⟨numbers.sources line member, slotted.sources line member⟩) filled
  obtain ⟨room, silent⟩ := blankOutputs_eq furnished slotted cleared
  rw [← numbers.base] at outside
  exact ⟨fills, {
    node := nodes ▸ atNode
    nodes
    space
    outside
    furnished
    room
    filled := all
    counts
    shown := shown.imp fun _ _ row => row.imp fun _ _ cell => (source_eq_ok.mp cell).2
    merges := space
    fresh := rfl
    blank := silent }⟩

end Progress

/-! ## Visits -/

section

variable [Node ν]

/-- What a block does with a station whose node has not failed. The lanes change
from `before` to `after`, and `lost` events find no room. -/
structure Visit (format : Format) (compensation links : Array Nat) (context : Context)
    (clock blockSize : Nat) (nodes : Array ν) (before after : Array Lane) (station : Station)
    (call : Call ν) (lost : Nat) : Prop where
  node : nodes[call.position]? = some call.node
  answer : Node.process context call.node call.ports = .ok (call.outcome, call.next, call.reply)
  shown : List.Forall₂ (List.Forall₂ (Feed.Shows after)) station.inputs call.ports.inputs.ports
  fresh : call.ports.inputs.dropped = 0
  blank : call.ports.outputs = (station.outputs.map format.silence).toArray
  written : format.AllShape station.outputs call.written
  traffic : ∃ fills waits,
    List.Forall₂ (RouteLine.Filled links clock blockSize before after) station.lines fills ∧
    station.Emits compensation clock blockSize before after call waits ∧
    lost = fills.sum + call.reply.inputs.dropped + waits.sum

theorem Station.Numbers.shows_congr {station : Station} {first : Nat} (numbers : station.Numbers first)
    {lanes others : Array Lane} (same : ∀ lane < station.base, others[lane]? = lanes[lane]?)
    {ports : List (List Source)} (shown : List.Forall₂ (List.Forall₂ (Feed.Shows lanes)) station.inputs ports) :
    List.Forall₂ (List.Forall₂ (Feed.Shows others)) station.inputs ports := by
  have below : ∀ feeds ∈ station.inputs, ∀ feed ∈ feeds, feed.lane < station.base :=
    fun feeds row feed cell => numbers.feeds feed (List.mem_flatten.mpr ⟨feeds, row, cell⟩)
  refine ((List.forall₂_and_left _ _).mpr ⟨below, shown⟩).imp ?_
  rintro feeds sources ⟨below, shown⟩
  refine ((List.forall₂_and_left _ _).mpr ⟨below, shown⟩).imp ?_
  rintro feed source ⟨below, lane, found, shows⟩
  exact ⟨lane, (same feed.lane below).trans found, shows⟩

theorem Visit.congr {format : Format} {compensation links : Array Nat} {context : Context}
    {clock blockSize first lost : Nat} {nodes others : Array ν} {before after earlier later : Array Lane}
    {station : Station} {call : Call ν}
    (visit : Visit format compensation links context clock blockSize nodes before after station call lost)
    (numbers : station.Numbers first) (node : others[call.position]? = nodes[call.position]?)
    (start : ∀ lane, first ≤ lane → earlier[lane]? = before[lane]?)
    (stop : ∀ lane, lane < station.stop → later[lane]? = after[lane]?) :
    Visit format compensation links context clock blockSize others earlier later station call lost := by
  have base := numbers.base
  have reach : station.base ≤ station.stop := Nat.le_add_right _ _
  obtain ⟨fills, waits, filled, emits, total⟩ := visit.traffic
  refine { visit with
    node := node.trans visit.node
    shown := ?_
    traffic := ⟨fills, waits, ?_, ?_, total⟩ }
  · exact numbers.shows_congr (fun lane below => stop lane (by omega)) visit.shown
  · refine ((List.forall₂_and_left _ _).mpr ⟨numbers.line_lt, filled⟩).imp ?_
    rintro line lost ⟨⟨source, low, high⟩, filled⟩
    exact filled.congr (start line.lane low) (stop line.lane (by omega)) (stop line.source (by omega))
  · refine emits.congr visit.written.size ?_ fun lane _ high => stop lane high
    intro lane low _
    rw [start lane (by omega)]

structure Monitor.Follows (calls : List (Call ν)) (lost : Nat) (before after : Monitor) : Prop where
  order : after.order = before.order
  names : after.names = before.names
  graph : after.graph = before.graph
  bound : after.compensationBound = before.compensationBound
  uncompensated : after.uncompensatedControl = before.uncompensatedControl
  misaligned : after.misaligned = before.misaligned
  compensation : after.latencies.compensation = before.latencies.compensation
  links : after.latencies.links = before.latencies.links
  overflows : after.overflows = before.overflows + lost
  size : after.failed.size = before.failed.size
  known : after.latencies.intrinsic.size = before.latencies.intrinsic.size
  failed : ∀ position, after.isFailedAt position = (before.isFailedAt position ||
    calls.any fun call => call.position = position && call.fails)
  /-- Reports that say nothing new change nothing. -/
  steady : (∀ call ∈ calls, call.fails = false →
      before.latencies.intrinsic[call.position]? = some (Node.latency call.next)) →
    after.latencies = before.latencies
  /-- Any news of a latency is marked. -/
  marked : after.latencies.dirty = false → after.latencies = before.latencies

namespace Monitor.Follows

variable {calls others : List (Call ν)} {lost more : Nat} {before middle after : Monitor}

theorem of_counts (counts : before.Counts lost after) : Follows ([] : List (Call ν)) lost before after := by
  obtain ⟨clamps, rfl⟩ := counts
  exact ⟨rfl, rfl, rfl, rfl, rfl, rfl, rfl, rfl, rfl, rfl, rfl, fun _ => (Bool.or_false _).symm, fun _ => rfl,
    fun _ => rfl⟩

theorem trans (first : Follows calls lost before middle) (second : Follows others more middle after) :
    Follows (calls ++ others) (lost + more) before after where
  order := second.order.trans first.order
  names := second.names.trans first.names
  graph := second.graph.trans first.graph
  bound := second.bound.trans first.bound
  uncompensated := second.uncompensated.trans first.uncompensated
  misaligned := second.misaligned.trans first.misaligned
  compensation := second.compensation.trans first.compensation
  links := second.links.trans first.links
  overflows := by rw [second.overflows, first.overflows, Nat.add_assoc]
  size := second.size.trans first.size
  known := second.known.trans first.known
  failed position := by rw [second.failed, first.failed, List.any_append, Bool.or_assoc]
  steady told := by
    have start := first.steady fun call member => told call (List.mem_append_left _ member)
    refine (second.steady fun call member => ?_).trans start
    rw [start]
    exact told call (List.mem_append_right _ member)
  marked clean := by
    have later := second.marked clean
    exact later.trans (first.marked (later ▸ clean))

end Monitor.Follows

theorem Latencies.report_spec {state after : Latencies} {position samples : Nat} {changed : Bool}
    (answer : state.report position samples = .ok (changed, after)) :
    after.compensation = state.compensation ∧ after.links = state.links ∧
      after.intrinsic.size = state.intrinsic.size ∧ (state.intrinsic[position]? = some samples → after = state) := by
  simp only [report, bind_eq_ok, itemAt_eq_ok] at answer
  obtain ⟨old, found, answer⟩ := answer
  split at answer
  · cases answer
    exact ⟨rfl, rfl, rfl, fun _ => rfl⟩
  · rename_i differ
    simp only [bind_eq_ok, pure_eq_ok, replaceAt_eq_ok, Prod.mk.injEq] at answer
    obtain ⟨_, ⟨_, rfl⟩, _, rfl⟩ := answer
    refine ⟨rfl, rfl, Array.size_setIfInBounds, ?_⟩
    intro same
    rw [found] at same
    exact absurd (Option.some.inj same) differ

theorem Latencies.report_marked {state after : Latencies} {position samples : Nat} {changed : Bool}
    (answer : state.report position samples = .ok (changed, after)) (clean : after.dirty = false) : after = state := by
  simp only [report, bind_eq_ok] at answer
  obtain ⟨old, _, answer⟩ := answer
  split at answer
  · cases answer
    rfl
  · simp only [bind_eq_ok, pure_eq_ok, Prod.mk.injEq] at answer
    obtain ⟨_, _, _, rfl⟩ := answer
    cases clean

namespace Progress

variable {format : Format} {slots : List (PortType × Nat)} {context : Context} {clock blockSize : Nat}
  {state next : Progress ν}

theorem finish_spec {position : Nat} {station : Station} {node : ν} {signals : List SignalBuffer}
    (furnished : format.Furnished slots state.lanes) (slotted : station.Slotted slots)
    (length : signals.length = station.outputs.length)
    (held : ∀ item ∈ signals.zipIdx station.base, ∃ old, state.lanes[item.2]? = some old ∧
      old.buffer = item.1)
    (answer : state.finish clock blockSize position station node = .ok next) :
    next.nodes = state.nodes ∧ next.space = state.space ∧
      SameOutside station.base station.stop state.lanes next.lanes ∧
      format.Furnished slots next.lanes ∧ ∃ wanted losses,
        state.monitor.latencies.compensation[position]? = some wanted ∧
        List.Forall₂ (fun item lost => Takes clock blockSize state.lanes next.lanes item.2 item.1
          (min wanted station.delayCapacity) lost) (signals.zipIdx station.base) losses ∧
        ∀ call : Call ν, call.position = position → call.next = node → call.fails = false →
          Monitor.Follows [call] losses.sum state.monitor next.monitor := by
  simp only [finish, bind_eq_ok, pure_eq_ok, itemAt_eq_ok, Prod.exists] at answer
  obtain ⟨wanted, found, middle, delayed, changed, latencies, reported, rfl⟩ := answer
  obtain ⟨clamped, counted⟩ := state.monitor.clampDelay_spec wanted station.delayCapacity
  rw [clamped] at delayed
  obtain ⟨nodes, space, outside, furnished, losses, takes, counts⟩ := delayLanes_spec
    { state with monitor := (state.monitor.clampDelay wanted station.delayCapacity).2 } signals
    furnished (Nat.min_le_right _ _) (by
      intro item member
      obtain ⟨old, there, same⟩ := held item member
      have past := List.le_snd_of_mem_zipIdx member
      have port := List.snd_lt_add_of_mem_zipIdx member
      have inside : station.base ≤ item.2 ∧ item.2 < station.stop := by
        unfold Station.stop
        omega
      obtain ⟨port, type, lane, output⟩ := exists_port inside
      exact ⟨type, old, lane ▸ slotted.outputs output, there, same⟩) length delayed
  refine ⟨nodes, space, outside, furnished, wanted, losses, found, takes, ?_⟩
  intro call position next runs
  have followed : Monitor.Follows ([] : List (Call ν)) losses.sum state.monitor middle.monitor := by
    simpa using Monitor.Follows.of_counts (counted.trans counts)
  -- The report comes last, and changes nothing unless the latency is news.
  obtain ⟨compensation, links, known, steady⟩ := Latencies.report_spec reported
  have last : Monitor.Follows [call] 0 middle.monitor { middle.monitor with latencies } := by
    refine ⟨rfl, rfl, rfl, rfl, rfl, rfl, compensation, links, rfl, rfl, known, ?_, ?_,
      Latencies.report_marked reported⟩
    · intro position
      simp [runs, Monitor.isFailedAt]
    · intro told
      apply steady
      rw [← position, ← next]
      exact told call (List.mem_singleton_self call) runs
  simpa using followed.trans last

theorem markFailed_follows (monitor : Monitor) (call : Call ν) (fails : call.fails = true)
    (inside : call.position < monitor.failed.size) :
    Monitor.Follows [call] 0 monitor (monitor.markFailed call.position) := by
  refine ⟨rfl, rfl, rfl, rfl, rfl, rfl, rfl, rfl, rfl, Array.size_setIfInBounds, rfl, ?_, fun _ => rfl,
    fun _ => rfl⟩
  intro position
  simp only [Monitor.isFailedAt, Monitor.markFailed, Array.getD_eq_getD_getElem?,
    Array.getElem?_setIfInBounds, List.any_cons, List.any_nil, Bool.or_false, fails, Bool.and_true]
  by_cases same : call.position = position
  · subst same
    simp [inside]
  · simp [same]

/-- What a run of calls leaves of a plan's moving parts. No lane below `low`
changes. -/
structure Moves (format : Format) (slots : List (PortType × Nat)) (low : Nat) (calls : List (Call ν))
    (lost : Nat) (state next : Progress ν) : Prop where
  below : ∀ lane < low, next.lanes[lane]? = state.lanes[lane]?
  furnished : format.Furnished slots next.lanes
  space : state.space.Alike next.space
  nodes : ∀ position, (∀ call ∈ calls, call.position ≠ position) →
    next.nodes[position]? = state.nodes[position]?
  monitor : Monitor.Follows calls lost state.monitor next.monitor

section

variable {position start : Nat} {station : Station} {call : Call ν} {ready : Progress ν} {fills : List Nat}

theorem Arranged.visit (arranged : Arranged format slots clock blockSize call.position start station state
      call.node call.ports ready fills) (numbers : station.Numbers start)
    (answer : Node.process context call.node call.ports = .ok (call.outcome, call.next, call.reply))
    (orderly : call.Orderly format) {after : Array Lane} {waits : List Nat}
    (outside : SameOutside station.base station.stop ready.lanes after)
    (emits : station.Emits state.monitor.latencies.compensation clock blockSize state.lanes after call
      waits) :
    Visit format state.monitor.latencies.compensation state.monitor.latencies.links context clock
      blockSize state.nodes state.lanes after station call
      (fills.sum + call.reply.inputs.dropped + waits.sum) := by
  have base := numbers.base
  refine {
    node := arranged.node
    answer
    shown := ?_
    fresh := arranged.fresh
    blank := arranged.blank
    written := orderly.written arranged.blank
    traffic := ⟨fills, waits, ?_, emits, rfl⟩ }
  · exact numbers.shows_congr (fun lane below => outside.same (.inl below)) arranged.shown
  · refine ((List.forall₂_and_left _ _).mpr ⟨numbers.line_lt, arranged.filled⟩).imp ?_
    rintro line lost ⟨⟨source, _, high⟩, filled⟩
    exact filled.congr rfl (outside.same (.inl high)) (outside.same (.inl (by omega)))

theorem runStation_parts
    (answer : state.runStation context clock blockSize position station = .ok (call, next)) :
    call.position = position ∧ ∃ ready,
      state.arrange clock blockSize position station = .ok (call.node, call.ports, ready) ∧
      Node.process context call.node call.ports = .ok (call.outcome, call.next, call.reply) ∧
      (call.fails = true ∧ next = { ready.collect station call with
          monitor := (ready.collect station call).monitor.markFailed position } ∨
        call.fails = false ∧
          (ready.collect station call).finish clock blockSize position station call.next = .ok next) := by
  simp only [runStation, bind_eq_ok, Prod.exists] at answer
  obtain ⟨node, ports, ready, arranged, outcome, after, reply, replied, answer⟩ := answer
  split at answer
  · rename_i fails
    obtain ⟨rfl, rfl⟩ := Prod.mk.inj (Except.ok.inj answer)
    exact ⟨rfl, ready, arranged, replied, .inl ⟨fails, rfl⟩⟩
  · rename_i runs
    simp only [bind_eq_ok, pure_eq_ok, Prod.mk.injEq] at answer
    obtain ⟨final, finished, rfl, rfl⟩ := answer
    exact ⟨rfl, ready, arranged, replied, .inr ⟨Bool.eq_false_iff.mpr runs, finished⟩⟩

omit [Node ν] in
theorem Arranged.stepped (arranged : Arranged format slots clock blockSize call.position start station state
      call.node call.ports ready fills) :
    (ready.collect station call).nodes[call.position]? = some call.next ∧
      ∀ other, (∀ made ∈ [call], made.position ≠ other) →
        (ready.collect station call).nodes[other]? = state.nodes[other]? := by
  have inside := (Array.getElem?_eq_some_iff.mp arranged.node).1
  refine ⟨?_, fun other differ => ?_⟩
  · simp only [collect, Array.getElem?_setIfInBounds, arranged.nodes, if_pos inside, if_true]
  · have apart : call.position ≠ other := differ call (List.mem_singleton_self call)
    simp only [collect, Array.getElem?_setIfInBounds, arranged.nodes]
    rw [if_neg apart]

section

-- An output's lane keeps its line until the outputs are delayed.
variable (arranged : Arranged format slots clock blockSize call.position start station state
      call.node call.ports ready fills)
  (stored : ∀ item ∈ call.written.toList.zipIdx station.base, ∃ old, ready.lanes[item.2]? = some old ∧
    (ready.collect station call).lanes[item.2]? = some { old with buffer := item.1 })
include arranged stored

omit [Node ν] in
theorem Arranged.emits_failed (fails : call.fails = true) :
    station.Emits state.monitor.latencies.compensation clock blockSize state.lanes
      (ready.collect station call).lanes call [] := by
  refine .failed fails fun item member => ?_
  obtain ⟨old, found, after⟩ := stored item member
  have held := arranged.outside.same (.inr (List.le_snd_of_mem_zipIdx member))
  exact ⟨old, held.symm.trans found, after⟩

omit [Node ν] in
theorem Arranged.emits_delayed (runs : call.fails = false) {wanted : Nat} {after : Array Lane} {waits : List Nat}
    (published : state.monitor.latencies.compensation[call.position]? = some wanted)
    (takes : List.Forall₂ (fun item lost => Takes clock blockSize (ready.collect station call).lanes after item.2
      item.1 (min wanted station.delayCapacity) lost) (call.written.toList.zipIdx station.base) waits) :
    station.Emits state.monitor.latencies.compensation clock blockSize state.lanes after call waits := by
  have line : ∀ item ∈ call.written.toList.zipIdx station.base, (state.lanes[item.2]?).map (·.delay) =
      ((ready.collect station call).lanes[item.2]?).map (·.delay) := by
    intro item member
    obtain ⟨old, before, after⟩ := stored item member
    have held := arranged.outside.same (.inr (List.le_snd_of_mem_zipIdx member))
    rw [after, ← held, before]
    rfl
  refine .delayed runs published ?_
  refine ((List.forall₂_and_left _ _).mpr ⟨line, takes⟩).imp ?_
  rintro item lost ⟨line, takes⟩
  exact takes.congr line rfl

end

theorem runStation_spec (furnished : format.Furnished slots state.lanes) (numbers : station.Numbers start)
    (slotted : station.Slotted slots) (inside : position < state.monitor.failed.size)
    (answer : state.runStation context clock blockSize position station = .ok (call, next))
    (orderly : call.Orderly format) :
    call.position = position ∧ call.ports.inputs.space = state.space ∧
      next.nodes[position]? = some call.next ∧
      SameOutside start station.stop state.lanes next.lanes ∧ ∃ lost,
      Visit format state.monitor.latencies.compensation state.monitor.latencies.links context clock
        blockSize state.nodes state.lanes next.lanes station call lost ∧
      Moves format slots start [call] lost state next := by
  have base := numbers.base
  obtain ⟨rfl, ready, arranged, replied, ends⟩ := runStation_parts answer
  obtain ⟨fills, arranged⟩ := arrange_spec furnished numbers slotted arranged
  have shapes := orderly.written arranged.blank
  have reach : station.base ≤ station.stop := Nat.le_add_right _ _
  obtain ⟨outside, furnished', stored, counts⟩ :=
    collect_spec arranged.furnished slotted shapes arranged.room
  have follows := Monitor.Follows.of_counts (ν := ν) (arranged.counts.trans counts)
  obtain ⟨stepped, told⟩ := arranged.stepped
  have space : state.space.Alike (ready.collect station call).space := by
    rw [← arranged.merges]
    exact orderly.space
  -- A node that fails leaves silence behind; what others wrote is delayed in place.
  rcases ends with ⟨fails, rfl⟩ | ⟨runs, finished⟩
  · refine ⟨rfl, arranged.merges, stepped, (arranged.outside.trans outside).widen (by omega) (by omega), _,
      arranged.visit numbers replied orderly outside (arranged.emits_failed stored fails), ?_, furnished', space,
      told, ?_⟩
    · intro lane low
      exact (outside.same (.inl (by omega))).trans (arranged.outside.same (.inl low))
    · exact follows.trans (markFailed_follows _ call fails (follows.size ▸ inside))
  · have size : call.written.toList.length = station.outputs.length := shapes.size
    obtain ⟨nodes, same, outside', furnished, wanted, waits, found, takes, finishes⟩ :=
      finish_spec furnished' slotted size (by
        intro item member
        obtain ⟨old, _, after⟩ := stored item member
        exact ⟨_, after, rfl⟩) finished
    have whole : SameOutside station.base station.stop ready.lanes next.lanes :=
      (outside.trans outside').widen (by omega) (by omega)
    have emits := arranged.emits_delayed stored runs (follows.compensation ▸ found) takes
    refine ⟨rfl, arranged.merges, nodes ▸ stepped, (arranged.outside.trans whole).widen (by omega) (by omega), _,
      arranged.visit numbers replied orderly whole emits, ?_, furnished, same ▸ space, ?_, ?_⟩
    · intro lane low
      exact (whole.same (.inl (by omega))).trans (arranged.outside.same (.inl low))
    · rw [nodes]
      exact told
    · exact follows.trans (finishes call rfl rfl runs)

end

end Progress

end

end Patchbay
