import Patchbay.Proofs.Plan.Numbering
import Patchbay.Proofs.Signal.Shape

/-! What a compiled plan starts from.

Every lane is silent and has the shape of its port and the length of its line.
The published delays are those of the latencies at compile time. A surveyed
patch can be put together whenever its storage can be addressed.
-/

set_option autoImplicit false

namespace Patchbay

def CompileOptions.format (options : CompileOptions) : Format :=
  ⟨options.blockSize, options.eventCapacity⟩

def Format.emptyLane (format : Format) (slot : PortType × Nat) : Lane :=
  ⟨format.silence slot.1, format.emptyLine slot.2 slot.1⟩

def Station.slots (station : Station) : List (PortType × Nat) :=
  station.lines.map (fun line => (line.type, line.capacity)) ++
    station.outputs.map (·, station.delayCapacity)

def Layout.slots (layout : Layout) : List (PortType × Nat) := layout.stations.flatMap (·.slots)

/-! ## Storage -/

theorem queueFor_eq_ok {Body : Type} (list : EventList Body) {options : CompileOptions}
    {capacity : Nat} {queue : EventQueue Body} (room : list.capacity = options.eventCapacity) :
    PortDelay.queueFor list capacity options.blockSize = .ok queue ↔
      (0 < capacity →
        (capacity + max options.blockSize 1 - 1) / max options.blockSize 1 + 1 < Count.limit ∧
        options.eventCapacity * ((capacity + max options.blockSize 1 - 1) / max options.blockSize 1 + 1)
          * 16 < Count.storageLimit) ∧ queue = .empty (options.format.places capacity) := by
  simp only [PortDelay.queueFor, EventQueue.reserved, EventQueue.places, room, bind_eq_ok, pure_eq_ok,
    Count.reserve_eq_ok, Format.places, CompileOptions.format]
  by_cases none : capacity = 0
  · subst none
    simp [Count.storageLimit, eq_comm]
  · simp only [if_neg none, bind_eq_ok, Count.add_eq_ok, Count.mul_eq_ok, Nat.pos_of_ne_zero none,
      true_imp_iff]
    constructor
    · rintro ⟨_, ⟨_, ⟨blocks, rfl⟩, fits, rfl⟩, _, storage, rfl⟩
      exact ⟨⟨blocks, storage⟩, rfl⟩
    · rintro ⟨⟨blocks, storage⟩, rfl⟩
      refine ⟨_, ⟨_, ⟨blocks, rfl⟩, ?_, rfl⟩, ⟨⟩, storage, rfl⟩
      simp only [Count.limit, Count.storageLimit] at storage ⊢
      omega

theorem forPort_silence {options : CompileOptions} {type : PortType} {buffer : SignalBuffer}
    (made : SignalBuffer.forPort type options.blockSize options.eventCapacity = .ok buffer) :
    buffer = options.format.silence type := by
  cases type with
  | audio channels =>
    simp only [SignalBuffer.forPort, AudioBuffer.silence, bind_eq_ok, pure_eq_ok,
      Count.mul_eq_ok] at made
    obtain ⟨_, ⟨_, ⟨_, rfl⟩, _, _, rfl⟩, rfl⟩ := made
    rfl
  | control =>
    cases made
    rfl
  | midi | trigger =>
    simp only [SignalBuffer.forPort, EventList.reserved, bind_eq_ok, pure_eq_ok] at made
    obtain ⟨_, ⟨_, _, rfl⟩, rfl⟩ := made
    rfl

theorem Lane.forPort_parts {options : CompileOptions} {type : PortType} {capacity : Nat} {lane : Lane} :
    Lane.forPort type capacity options.blockSize options.eventCapacity = .ok lane ↔
      (∃ buffer, SignalBuffer.forPort type options.blockSize options.eventCapacity = .ok buffer) ∧
      ∃ line, PortDelay.forBuffer (options.format.silence type) capacity options.blockSize = .ok line ∧
        lane = ⟨options.format.silence type, line⟩ := by
  simp only [Lane.forPort, bind_eq_ok, pure_eq_ok]
  constructor
  · rintro ⟨buffer, made, line, built, rfl⟩
    rw [forPort_silence made] at built ⊢
    exact ⟨⟨_, made⟩, line, built, rfl⟩
  · rintro ⟨⟨buffer, made⟩, line, built, rfl⟩
    have same := forPort_silence made
    subst same
    exact ⟨_, made, line, built, rfl⟩

theorem Lane.forPort_eq_ok {options : CompileOptions} {type : PortType} {capacity : Nat} {lane : Lane} :
    Lane.forPort type capacity options.blockSize options.eventCapacity = .ok lane ↔
      type.Storable options capacity ∧ lane = options.format.emptyLane (type, capacity) := by
  rw [Lane.forPort_parts]
  unfold PortType.Storable
  cases type with
  | audio channels =>
    have once : max (max channels 1) 1 = max channels 1 := by omega
    simp only [SignalBuffer.forPort, AudioBuffer.silence, Format.silence, PortDelay.forBuffer,
      AudioDelayLine.empty, bind_eq_ok, pure_eq_ok, Count.mul_eq_ok, Count.reserve_eq_ok, once,
      CompileOptions.format, Count.limit, Count.storageLimit]
    constructor
    · rintro ⟨⟨_, _, ⟨_, ⟨_, rfl⟩, _, block, rfl⟩, rfl⟩, _, ⟨_, ⟨_, ⟨_, rfl⟩, _, line, rfl⟩, rfl⟩, rfl⟩
      exact ⟨⟨block, line⟩, rfl⟩
    · rintro ⟨⟨block, line⟩, rfl⟩
      exact ⟨⟨_, _, ⟨_, ⟨by omega, rfl⟩, ⟨⟩, block, rfl⟩, rfl⟩, _,
        ⟨_, ⟨_, ⟨by omega, rfl⟩, ⟨⟩, line, rfl⟩, rfl⟩, rfl⟩
  | control =>
    constructor
    · rintro ⟨_, _, made, rfl⟩
      cases made
      exact ⟨trivial, rfl⟩
    · rintro ⟨_, rfl⟩
      exact ⟨⟨_, rfl⟩, _, rfl, rfl⟩
  | midi | trigger =>
    simp only [SignalBuffer.forPort, EventList.reserved, Format.silence, PortDelay.forBuffer,
      bind_eq_ok, pure_eq_ok, Count.reserve_eq_ok,
      queueFor_eq_ok (EventList.empty options.format.eventCapacity) rfl]
    constructor
    · rintro ⟨⟨_, _, ⟨_, room, rfl⟩, rfl⟩, _, ⟨_, ⟨line, rfl⟩, rfl⟩, rfl⟩
      exact ⟨⟨room, line⟩, rfl⟩
    · rintro ⟨⟨room, line⟩, rfl⟩
      exact ⟨⟨_, _, ⟨⟨⟩, room, rfl⟩, rfl⟩, _, ⟨_, ⟨line, rfl⟩, rfl⟩, rfl⟩

namespace Layout

variable {options : CompileOptions} {station : Station}

theorem mapM_forPort {α : Type} (slot : α → PortType × Nat) {items : List α} {lanes : List Lane}
    (made : items.mapM (fun item =>
      Lane.forPort (slot item).1 (slot item).2 options.blockSize options.eventCapacity) = .ok lanes) :
    lanes = (items.map slot).map options.format.emptyLane := by
  rw [mapM_eq_ok] at made
  induction made with
  | nil => rfl
  | cons here _ ih => rw [List.map_cons, List.map_cons, ← ih, (Lane.forPort_eq_ok.mp here).2]

theorem stationLanes_eq {lanes : List Lane} (made : stationLanes options station = .ok lanes) :
    lanes = station.slots.map options.format.emptyLane := by
  simp only [stationLanes, bind_eq_ok, pure_eq_ok] at made
  obtain ⟨lines, madeLines, outputs, madeOutputs, rfl⟩ := made
  have ofLines := mapM_forPort (fun line : RouteLine => (line.type, line.capacity)) madeLines
  have ofOutputs := mapM_forPort (fun port : PortType => (port, station.delayCapacity)) madeOutputs
  rw [ofLines, ofOutputs, Station.slots, List.map_append]

theorem stationLanes_ok (storable : ∀ slot ∈ station.slots, slot.1.Storable options slot.2) :
    ∃ lanes, stationLanes options station = .ok lanes := by
  obtain ⟨lines, madeLines⟩ := mapM_ok_of_forall (fun line : RouteLine =>
      Lane.forPort line.type line.capacity options.blockSize options.eventCapacity)
    station.lines fun line member =>
      ⟨_, Lane.forPort_eq_ok.mpr ⟨storable (line.type, line.capacity)
        (List.mem_append_left _ (List.mem_map.mpr ⟨line, member, rfl⟩)), rfl⟩⟩
  obtain ⟨outputs, madeOutputs⟩ := mapM_ok_of_forall (fun port : PortType =>
      Lane.forPort port station.delayCapacity options.blockSize options.eventCapacity)
    station.outputs fun port member =>
      ⟨_, Lane.forPort_eq_ok.mpr ⟨storable (port, station.delayCapacity)
        (List.mem_append_right _ (List.mem_map.mpr ⟨port, member, rfl⟩)), rfl⟩⟩
  exact ⟨lines ++ outputs, by simp only [stationLanes, madeLines, madeOutputs, ok_bind]; rfl⟩

variable {ν : Type} [Node ν]

def inputSamples (blockSize : Nat) (port : PortSpec) : Nat :=
  match port.type with
  | .audio channels => blockSize * max channels 1
  | _ => 0

theorem largestInput_from {blockSize : Nat} {ports : List PortSpec} (start : Nat)
    (fits : ∀ port ∈ ports, inputSamples blockSize port < Count.limit) :
    ports.foldlM (fun largest port =>
      match port.type with
      | .audio channels => do return max largest (← Count.mul blockSize (max channels 1))
      | _ => (.ok largest : Checked Nat)) start =
        .ok ((ports.map (inputSamples blockSize)).foldl max start) := by
  induction ports generalizing start with
  | nil => rfl
  | cons port rest ih =>
    have here := fits port List.mem_cons_self
    have later := fun start => ih start fun other member => fits other (List.mem_cons_of_mem _ member)
    rw [List.foldlM_cons, List.map_cons, List.foldl_cons]
    cases type : port.type with
    | audio channels =>
      simp only [inputSamples, type] at here ⊢
      rw [Count.mul, if_pos here]
      exact later _
    | midi | control | trigger => simpa only [inputSamples, type, ok_bind, Nat.max_zero] using later start

theorem largestInput_eq {blockSize : Nat} {placed : List (Placed ν)}
    (fits : ∀ port ∈ placed.flatMap fun place => Node.inputs place.node,
      inputSamples blockSize port < Count.limit) :
    largestInput blockSize placed =
      .ok (((placed.flatMap fun place => Node.inputs place.node).map (inputSamples blockSize)).foldl
        max 0) :=
  largestInput_from 0 fits

theorem inputSamples_le_largestInput {blockSize largest : Nat} {placed : List (Placed ν)}
    (answer : largestInput blockSize placed = .ok largest) :
    ∀ port ∈ placed.flatMap fun place => Node.inputs place.node, inputSamples blockSize port ≤ largest := by
  unfold largestInput at answer
  -- The maximum never falls, so what it was before a port is below what it is at the end.
  suffices every : ∀ (ports : List PortSpec) (start : Nat), ports.foldlM (fun largest port =>
      match port.type with
      | .audio channels => do return max largest (← Count.mul blockSize (max channels 1))
      | _ => (.ok largest : Checked Nat)) start = .ok largest →
      start ≤ largest ∧ ∀ port ∈ ports, inputSamples blockSize port ≤ largest from (every _ _ answer).2
  clear answer
  intro ports
  induction ports with
  | nil =>
    intro start answer
    cases answer
    exact ⟨le_refl _, by simp⟩
  | cons port rest ih =>
    intro start answer
    simp only [List.foldlM_cons, bind_eq_ok] at answer
    obtain ⟨middle, first, answer⟩ := answer
    obtain ⟨above, others⟩ := ih middle answer
    rw [List.forall_mem_cons]
    cases type : port.type with
    | audio channels =>
      simp only [type, bind_eq_ok, pure_eq_ok, Count.mul_eq_ok] at first
      obtain ⟨_, ⟨_, rfl⟩, rfl⟩ := first
      simp only [inputSamples, type]
      exact ⟨by omega, by omega, others⟩
    | midi | control | trigger =>
      simp only [type] at first
      cases first
      simp only [inputSamples, type]
      exact ⟨above, Nat.zero_le _, others⟩

theorem mapM_forPort_storable {α : Type} (slot : α → PortType × Nat) {items : List α} {lanes : List Lane}
    (made : items.mapM (fun item =>
      Lane.forPort (slot item).1 (slot item).2 options.blockSize options.eventCapacity) = .ok lanes) :
    ∀ item ∈ items, (slot item).1.Storable options (slot item).2 := by
  intro item member
  obtain ⟨_, _, here⟩ := exists_of_mem_left (mapM_eq_ok.mp made) member
  exact (Lane.forPort_eq_ok.mp here).1

theorem stationLanes_storable {lanes : List Lane} (made : stationLanes options station = .ok lanes) :
    ∀ slot ∈ station.slots, slot.1.Storable options slot.2 := by
  simp only [stationLanes, bind_eq_ok, pure_eq_ok] at made
  obtain ⟨lines, madeLines, outputs, madeOutputs, rfl⟩ := made
  intro slot member
  rcases List.mem_append.mp member with inLines | inOutputs
  · obtain ⟨line, among, rfl⟩ := List.mem_map.mp inLines
    exact mapM_forPort_storable (fun line : RouteLine => (line.type, line.capacity)) madeLines line among
  · obtain ⟨port, among, rfl⟩ := List.mem_map.mp inOutputs
    exact mapM_forPort_storable (fun port : PortType => (port, station.delayCapacity)) madeOutputs port among

end Layout

/-! ## Plans -/

variable {ν : Type} [Node ν]

structure Assembled (options : CompileOptions) (placed : List (Placed ν)) (survey : Survey)
    (sink : Nat × Nat × Nat) (plan : Plan ν) : Prop where
  stations : plan.layout.stations = Layout.layStations survey #[] 0 placed
  sinkLane : plan.layout.sinkLane =
    (plan.layout.stations[sink.1]?.map (·.base)).getD 0 + sink.2.1
  sinkChannels : plan.layout.sinkChannels = sink.2.2
  blockSize : plan.layout.blockSize = options.blockSize
  eventCapacity : plan.layout.eventCapacity = options.eventCapacity
  largest : Layout.largestInput options.blockSize placed = .ok plan.layout.maxInputSamples
  nodes : plan.nodes = (placed.map (·.node)).toArray
  lanes : plan.lanes.toList = plan.layout.slots.map options.format.emptyLane
  storable : ∀ slot ∈ plan.layout.slots, slot.1.Storable options slot.2
  order : plan.monitor.order = placed.map (·.id)
  failed : plan.monitor.failed = Array.replicate placed.length false
  graph : plan.monitor.graph = survey.graph
  intrinsic : plan.monitor.latencies.intrinsic = survey.intrinsic
  published : ∃ initial, survey.graph.align survey.intrinsic = .ok initial ∧
    plan.monitor.latencies.compensation = initial.values ∧
    plan.monitor.latencies.links = initial.links
  linkCapacity : plan.monitor.latencies.linkCapacity = survey.linkCapacity.toArray
  clean : plan.monitor.latencies.dirty = false
  bound : plan.monitor.compensationBound = survey.bound
  clamps : plan.monitor.clamps = 0
  overflows : plan.monitor.overflows = 0
  blocks : plan.monitor.blocks = 0
  misaligned : plan.monitor.misaligned =
    countMisaligned plan.monitor.latencies.links plan.monitor.latencies.linkCapacity

theorem mapM_stationLanes {options : CompileOptions} {stations : List Station} {lanes : List (List Lane)}
    (made : stations.mapM (Layout.stationLanes options) = .ok lanes) :
    lanes.flatten = (stations.flatMap (·.slots)).map options.format.emptyLane := by
  rw [mapM_eq_ok] at made
  induction made with
  | nil => rfl
  | cons here _ ih =>
    rw [List.flatten_cons, List.flatMap_cons, List.map_append, ← ih, Layout.stationLanes_eq here]

theorem assemble_assembled {options : CompileOptions} {placed : List (Placed ν)} {survey : Survey}
    {sink : Nat × Nat × Nat} {plan : Plan ν}
    (answer : assemble options placed survey sink = .ok plan) :
    Assembled options placed survey sink plan := by
  simp only [assemble, bind_eq_ok, pure_eq_ok] at answer
  obtain ⟨initial, aligned, lanes, made, _, largest, rfl⟩ := answer
  exact {
    stations := rfl
    sinkLane := rfl
    sinkChannels := rfl
    blockSize := rfl
    eventCapacity := rfl
    largest
    nodes := rfl
    lanes := mapM_stationLanes made
    storable := fun slot member => by
      obtain ⟨station, among, inStation⟩ := List.mem_flatMap.mp member
      obtain ⟨_, _, lanesMade⟩ := exists_of_mem_left (mapM_eq_ok.mp made) among
      exact Layout.stationLanes_storable lanesMade slot inStation
    order := rfl
    failed := rfl
    graph := rfl
    intrinsic := rfl
    published := ⟨initial, aligned, rfl, rfl⟩
    linkCapacity := rfl
    clean := rfl
    bound := rfl
    clamps := rfl
    overflows := rfl
    blocks := rfl
    misaligned := rfl }

section

variable {patch : Patch ν} {placed : List (Placed ν)} {survey : Survey} {options : CompileOptions}

omit [Node ν] in
theorem Survey.line?_eq_some {dest link capacity : Nat} {wire : Wire} :
    survey.line? dest wire = some (link, capacity) ↔
      survey.graph.link wire.source dest = some link ∧ capacity = survey.lineCapacity dest wire ∧
        0 < capacity := by
  simp only [line?, Option.bind_eq_bind, Option.bind_eq_some_iff, Option.pure_def]
  constructor
  · rintro ⟨_, found, rest⟩
    split at rest
    · cases rest
      exact ⟨found, rfl, ‹_›⟩
    · cases rest
  · rintro ⟨found, rfl, room⟩
    exact ⟨link, found, if_pos room⟩

theorem Surveyed.intrinsic_le (surveyed : Surveyed patch placed survey) (position : Nat) :
    survey.intrinsic.getD position 0 ≤ (declaredAt placed).getD position 0 := by
  rw [surveyed.intrinsic, declaredAt]
  simp only [Array.getD_eq_getD_getElem?, List.getElem?_toArray, List.getElem?_map]
  cases placed[position]? with
  | none => exact le_refl 0
  | some place => exact le_max_right _ _

theorem Surveyed.latency_agrees (surveyed : Surveyed patch placed survey) {position : Nat} {place : Placed ν}
    (item : placed[position]? = some place) : survey.intrinsic.getD position 0 = patch.latency place.id := by
  have present := surveyed.placement.present place (List.mem_of_getElem? item)
  simp [surveyed.intrinsic, Array.getD_eq_getD_getElem?, item, Patch.latency, present]

/-- Every lane of a station carries one of the patch's lines, within the bound. -/
theorem Stations.slot_line {stations : List Station} (laid : Stations patch placed survey stations)
    {position : Nat} {place : Placed ν} {station : Station} (item : placed[position]? = some place)
    (stationed : Stationed survey stations position place station) {slot : PortType × Nat}
    (member : slot ∈ station.slots) : patch.Line slot.1 slot.2 ∧ slot.2 ≤ survey.bound := by
  have surveyed := laid.surveyed
  -- The lanes of a station are its lines and its outputs.
  rcases List.mem_append.mp member with inLines | inOutputs
  · obtain ⟨line, among, rfl⟩ := List.mem_map.mp inLines
    obtain ⟨wire, wireIn, needs, _, type⟩ := stationed.lines.origin line among
    obtain ⟨_, capacity, room⟩ := Survey.line?_eq_some.mp needs
    obtain ⟨id, edge, found, into, carries⟩ := surveyed.wired.exists_edge item wireIn
    simp only [type, capacity]
    refine ⟨?_, surveyed.le_bound_of_line item wireIn⟩
    exact .branch (surveyed.lineCapacity_branches item found into carries (capacity ▸ room))
  · obtain ⟨port, among, rfl⟩ := List.mem_map.mp inOutputs
    rw [stationed.outputs] at among
    obtain ⟨spec, specIn, rfl⟩ := List.mem_map.mp among
    obtain ⟨index, atIndex⟩ := List.mem_iff_getElem?.mp specIn
    have present := surveyed.placement.present place (List.mem_of_getElem? item)
    have output : patch.OutputAt place.id index spec := ⟨_, present, atIndex⟩
    simp only [stationed.delayCapacity]
    refine ⟨?_, surveyed.le_bound_of_delay (List.getElem?_eq_some_iff.mp item).1⟩
    by_cases idle : ∀ consumer, ¬ patch.Feeds place.id consumer
    · rw [surveyed.delayCapacity_idle item idle]
      exact .idle output idle
    · push Not at idle
      obtain ⟨consumer, feeds⟩ := idle
      exact .waiting output (surveyed.delayCapacity_earliest item feeds)

theorem Stations.slots_line {stations : List Station} (laid : Stations patch placed survey stations) :
    ∀ slot ∈ stations.flatMap (·.slots), patch.Line slot.1 slot.2 ∧ slot.2 ≤ survey.bound := by
  intro slot member
  obtain ⟨station, among, inSlots⟩ := List.mem_flatMap.mp member
  obtain ⟨position, atPosition⟩ := List.mem_iff_getElem?.mp among
  have inside := (List.getElem?_eq_some_iff.mp atPosition).1
  rw [laid.length] at inside
  have item := List.getElem?_eq_getElem inside
  obtain ⟨again, atAgain, stationed⟩ := laid.stationed item
  rw [atPosition] at atAgain
  cases atAgain
  exact laid.slot_line item stationed inSlots

theorem assemble_ok_of_storable {initial : Alignment} (aligned : survey.graph.align survey.intrinsic = .ok initial)
    (storable : ∀ slot ∈ (Layout.layStations survey #[] 0 placed).flatMap (·.slots), slot.1.Storable options slot.2)
    (inputs : ∀ port ∈ placed.flatMap fun place => Node.inputs place.node,
      Layout.inputSamples options.blockSize port < Count.limit) (sink : Nat × Nat × Nat) :
    ∃ plan, assemble options placed survey sink = .ok plan := by
  obtain ⟨lanes, made⟩ := mapM_ok_of_forall (Layout.stationLanes options) _ fun station member =>
    Layout.stationLanes_ok fun slot among => storable slot (List.mem_flatMap.mpr ⟨station, member, among⟩)
  unfold assemble
  simp only [aligned, made, Layout.largestInput_eq inputs, ok_bind]
  exact ⟨_, rfl⟩

theorem assemble_ok (surveyed : Surveyed patch placed survey) (acyclic : patch.Acyclic)
    (representable : patch.Representable options) (within : survey.bound ≤ options.maxCompensation)
    (sink : Nat × Nat × Nat) :
    ∃ plan, assemble options placed survey sink = .ok plan := by
  obtain ⟨initial, aligned⟩ := LatencyGraph.align_ok survey.intrinsic surveyed.inOrder
    (by simp [surveyed.intrinsic, surveyed.size])
    fun position total path =>
      surveyed.accumulates_fits surveyed.intrinsic_le (representable.latencies acyclic) path
  refine assemble_ok_of_storable aligned ?_ ?_ sink
  · intro slot member
    obtain ⟨line, bound⟩ := (Layout.layStations_stations surveyed).slots_line slot member
    exact representable.lines _ _ line (bound.trans within)
  · intro port member
    obtain ⟨place, among, atPlace⟩ := List.mem_flatMap.mp member
    obtain ⟨index, atIndex⟩ := List.mem_iff_getElem?.mp atPlace
    have counts := representable.inputs place.id index port
      ⟨_, surveyed.placement.present place among, atIndex⟩
    unfold Layout.inputSamples
    cases type : port.type with
    | audio channels => exact counts channels type
    | midi | control | trigger => exact (by decide : 0 < Count.limit)

end

end Patchbay
