import Patchbay.Proofs.Render.Arrival
import Patchbay.Proofs.Render.EventArrival

/-! Events arrive aligned.

Every event edge carries its producer's events as late as an audio edge carries
frames. An event that waits on two lines is taken for due on the second at the
time at which the first let it go, so the two waits add up.
-/

set_option autoImplicit false

namespace Patchbay

variable {ν : Type} [Node ν] {patch : Patch ν} {options : CompileOptions} {placed : List (Placed ν)}
  {survey : Survey} {last : Plan ν} {blocks : List (Block ν)} {start : Nat} {alignment : Alignment}

def Monitor.latencyOf (monitor : Monitor) (id : NodeId) : Nat := (monitor.intrinsicLatency? id).getD 0

theorem CompiledFrom.latencyOf_eq {plan : Plan ν} (compiled : CompiledFrom patch options placed survey plan)
    {position : Nat} {place : Placed ν} (item : placed[position]? = some place) :
    survey.intrinsic.getD position 0 = plan.monitor.latencyOf place.id := by
  obtain ⟨_, _, _, _, _, assembled⟩ := compiled.assembled
  simp [Monitor.latencyOf, Monitor.intrinsicLatency?, compiled.serves.position?_eq item, assembled.intrinsic,
    Array.getD_eq_getD_getElem?]

theorem Plan.RunsOn.arriving_departures_same {plan : Plan ν} {latency : Nat → Nat}
    (runs : plan.RunsOn patch options placed survey latency start alignment blocks)
    (small : options.blockSize ≤ 2 ^ 32) {edge : Edge} {position consumer wait rest index : Nat}
    {origin place : Placed ν} (source : placed[position]? = some origin) (sourceIs : origin.id = edge.source)
    (item : placed[consumer]? = some place) (dest : place.id = edge.dest)
    (waits : plan.monitor.compensation? edge.source = some wait)
    (left : plan.monitor.routeCompensation? edge.source edge.dest = some rest)
    (alive : ∀ block ∈ blocks, block.after.monitor.isFailedAt position = false)
    (inside : index < blocks.length) :
    alignment.arrivalAt position + latency position ≤ alignment.arrivalAt consumer ∧
      SameBy Event.frame (arriving start options.blockSize rest
          (departures start options.blockSize wait blocks position edge.sourcePort) index)
        (arriving start options.blockSize
          (alignment.arrivalAt consumer - alignment.arrivalAt position - latency position)
          (emissions blocks position edge.sourcePort) index) := by
  rw [← sourceIs, runs.compensation?_eq source] at waits
  rw [← sourceIs, ← dest, runs.routeCompensation?_eq item source, Option.bind_eq_some_iff] at left
  obtain ⟨link, atLink, left⟩ := left
  obtain ⟨wait', rest', waits', left', balance⟩ := runs.aligned.balance atLink
  rw [waits] at waits'
  rw [left] at left'
  cases waits'
  cases left'
  have both : alignment.arrivalAt consumer - alignment.arrivalAt position - latency position = wait + rest := by
    omega
  rw [departures_eq alive, both]
  exact ⟨by omega, arriving_arriving small inside⟩

/-- While no event is lost, each event edge carries the events that its producer
emitted as late as the arrivals of its ends ask for, which is as late as audio.
Frames have 32 bits, so that no block may be longer. -/
theorem events_arrive_aligned {plan : Plan ν} (compiled : compile patch options = .ok (.ok plan))
    (run : Run Plan.Tended plan blocks last) (steady : plan.Steady options.blockSize start blocks)
    (small : options.blockSize ≤ 2 ^ 32) :
    ∃ arrival, patch.Balanced plan.monitor.latencyOf arrival ∧
      ∀ id edge, patch.EventEdge id edge →
      arrival edge.source + plan.monitor.latencyOf edge.source ≤ arrival edge.dest ∧
      ∀ (index : Nat) block, blocks[index]? = some block → block.after.monitor.overflows = 0 →
      block.before.monitor.isFailed edge.dest = false → block.after.monitor.isFailed edge.source = false →
      ∃ position signal, plan.monitor.order[position]? = some edge.source ∧
        block.Reads patch plan.monitor.order id edge signal ∧
        SameBy Event.frame signal.events
          (arriving start options.blockSize (edge.lag plan.monitor.latencyOf arrival)
            (emissions blocks position edge.sourcePort) index) := by
  obtain ⟨placed, survey, origin⟩ := compile_plan compiled
  have serves := origin.serves
  obtain ⟨alignment, aligns, _, _⟩ := origin.carries run steady
  have aligned := LatencyGraph.align_aligned serves.stations.surveyed.inOrder aligns
  have agree := @CompiledFrom.latencyOf_eq _ _ _ _ _ _ _ origin
  refine ⟨plan.arrivalOf alignment, serves.balanced aligned agree, fun id edge event => ?_⟩
  refine ⟨serves.forward aligned agree event.1, fun index block found nothing running alive => ?_⟩
  -- The run up to the block lost nothing either.
  obtain ⟨length, extends_⟩ := take_concat_prefix found
  obtain ⟨earlier, before, changes, renders⟩ := run.upTo found
  have sofar := before.render changes renders
  have steady := steady.before extends_
  obtain ⟨alignment', aligns', carries, runs⟩ := origin.carries sofar steady
  rw [aligns] at aligns'
  cases aligns'
  have uncrowded := runs.uncrowded (carries.lossless.mp nothing)
  obtain ⟨position, wait, rest, signal, source, waits, left, reads, events⟩ :=
    runs.hears uncrowded event (List.prefix_refl _) running
  obtain ⟨origin', item, sourceIs⟩ := serves.place_at source
  obtain ⟨consumer, _, place, _, _, _, item', dest, _⟩ := serves.stations.exists_routed event.1
  rw [← sourceIs, carries.serves.isFailed_eq item] at alive
  have running := (sofar.mono fun _ _ tended => tended.toAdjusted).alive serves
    (fun block member call among => (steady.typed block member call among).orderly _) alive
  have inside : index < (blocks.take index ++ [block]).length := by simp [length]
  obtain ⟨_, same⟩ := runs.arriving_departures_same small item sourceIs item' dest waits left running inside
  refine ⟨position, signal, source, reads, ?_⟩
  have started : emissions (blocks.take index ++ [block]) position edge.sourcePort <+:
      emissions blocks position edge.sourcePort := extends_.map _
  rw [length] at events
  rw [Edge.lag, ← sourceIs, ← dest, serves.arrivalOf_eq item, serves.arrivalOf_eq item', ← agree item,
    arriving_starts started (by simp [length])]
  exact events.trans same

/-! ## Small patches -/

theorem drumroll_aligned : ∃ (plan : Plan Ticker) (first second : Block Ticker) (arrival : NodeId → Nat),
    compile drumroll { blockSize := 4, eventCapacity := 4 } = .ok (.ok plan) ∧
    Run Plan.Tended plan [first, second] second.after ∧ plan.Steady 4 0 [first, second] ∧
    drumroll.Balanced plan.monitor.latencyOf arrival ∧ ∃ position signal,
      plan.monitor.order[position]? = some ⟨0⟩ ∧
      second.Reads drumroll plan.monitor.order ⟨0⟩ ⟨⟨0⟩, 0, ⟨2⟩, 0, 1⟩ signal ∧
      SameBy Event.frame signal.events (arriving 0 4
        (Edge.lag plan.monitor.latencyOf arrival ⟨⟨0⟩, 0, ⟨2⟩, 0, 1⟩)
        (emissions [first, second] position 0) 1) := by
  obtain ⟨plan, first, second, compiled, run, steady, _, running, nothing, alive⟩ :=
    @drumroll_renders 4 0 (by decide +kernel)
  obtain ⟨arrival, balanced, heard⟩ := events_arrive_aligned compiled run steady (by decide)
  have event : drumroll.EventEdge ⟨0⟩ ⟨⟨0⟩, 0, ⟨2⟩, 0, 1⟩ := ⟨rfl, .trigger "out", ⟨_, rfl, rfl⟩, .inr rfl⟩
  exact ⟨plan, first, second, arrival, compiled, run, steady, balanced,
    (heard _ _ event).2 1 second rfl nothing running alive⟩

def farBeat : Patch Ticker := duet [[5]] (2 ^ 32)

def farOptions : CompileOptions where
  blockSize := 2 ^ 33
  eventCapacity := 2
  maxCompensation := 2 ^ 32

structure FarBeat (plan : Plan Ticker) (alignment : Alignment) (calls : List (Call Ticker))
    (state : Progress Ticker) : Prop where
  calm : ∀ call ∈ calls, call.Calm plan (2 ^ 33)
  reads : ∀ call ∈ calls, plan.monitor.order[call.position]? = some ⟨2⟩ →
    (call.ports.inputs.sources 0).map (·.buffer.events) = [[⟨5, .inr 0⟩], []]
  emits : ((calls.find? (·.position = 0)).bind (·.written[0]?)).map SignalBuffer.events = some [⟨5, .inr 0⟩]
  order : plan.monitor.order = [⟨0⟩, ⟨1⟩, ⟨2⟩]
  source : plan.arrivalOf alignment ⟨0⟩ + plan.monitor.latencyOf ⟨0⟩ = 0
  dest : plan.arrivalOf alignment ⟨2⟩ = 2 ^ 32
  lossless : state.monitor.overflows = 0
  running : plan.monitor.isFailed ⟨2⟩ = false
  alive : state.monitor.isFailed ⟨0⟩ = false

set_option synthInstance.maxSize 512 in
instance (plan : Plan Ticker) (alignment : Alignment) (calls : List (Call Ticker)) (state : Progress Ticker) :
    Decidable (FarBeat plan alignment calls state) :=
  decidable_of_iff ((_ ∧ _ ∧ _) ∧ (_ ∧ _ ∧ _) ∧ (_ ∧ _ ∧ _))
    ⟨fun ⟨⟨calm, reads, emits⟩, ⟨order, source, dest⟩, lossless, running, alive⟩ =>
      ⟨calm, reads, emits, order, source, dest, lossless, running, alive⟩,
    fun ⟨calm, reads, emits, order, source, dest, lossless, running, alive⟩ =>
      ⟨⟨calm, reads, emits⟩, ⟨order, source, dest⟩, lossless, running, alive⟩⟩

theorem farBeat_runs : ∃ (plan : Plan Ticker) (scratch : Scratch) (alignment : Alignment)
    (calls : List (Call Ticker)) (state : Progress Ticker),
    compile farBeat farOptions = .ok (.ok plan) ∧ Scratch.none.fits plan.layout = .ok false ∧
    Scratch.forLayout plan.layout = .ok scratch ∧
    plan.monitor.graph.align plan.monitor.latencies.intrinsic = .ok alignment ∧
    Progress.runFrom (.start 48000 (2 ^ 33)) 0 plan.layout.blockSize 0 plan.layout.stations
      ⟨plan.nodes, plan.lanes, plan.monitor, scratch.space⟩ = .ok (calls, state) ∧
    FarBeat plan alignment calls state := by
  obtain ⟨plan, compiled, unfit, scratch, made, alignment, aligns, ⟨calls, state⟩, passed, far⟩ :
      ∃ plan, compile farBeat farOptions = .ok (.ok plan) ∧
      Scratch.none.fits plan.layout = .ok false ∧ ∃ scratch, Scratch.forLayout plan.layout = .ok scratch ∧
      ∃ alignment, plan.monitor.graph.align plan.monitor.latencies.intrinsic = .ok alignment ∧
      ∃ passed, Progress.runFrom (.start 48000 (2 ^ 33)) 0 plan.layout.blockSize 0 plan.layout.stations
        ⟨plan.nodes, plan.lanes, plan.monitor, scratch.space⟩ = .ok passed ∧
      FarBeat plan alignment passed.1 passed.2 := by decide +kernel
  exact ⟨plan, scratch, alignment, calls, state, compiled, unfit, made, aligns, passed, far⟩

/-- Where a block is longer than frames can count, an event of its fifth frame that
is due `2 ^ 32` frames later, in the same block, is stamped as if it were not late. -/
theorem farBeat_wraps : ∃ (plan : Plan Ticker) (block : Block Ticker) (arrival : NodeId → Nat)
    (signal : SignalBuffer), compile farBeat farOptions = .ok (.ok plan) ∧
    Run Plan.Tended plan [block] block.after ∧ plan.Steady farOptions.blockSize 0 [block] ∧
    block.after.monitor.overflows = 0 ∧ block.before.monitor.isFailed ⟨2⟩ = false ∧
    block.after.monitor.isFailed ⟨0⟩ = false ∧ farBeat.Balanced plan.monitor.latencyOf arrival ∧
    Edge.lag plan.monitor.latencyOf arrival ⟨⟨0⟩, 0, ⟨2⟩, 0, 1⟩ = 2 ^ 32 ∧
    plan.monitor.order[0]? = some ⟨0⟩ ∧ emissions [block] 0 0 = [[⟨5, .inr 0⟩]] ∧
    block.Reads farBeat plan.monitor.order ⟨0⟩ ⟨⟨0⟩, 0, ⟨2⟩, 0, 1⟩ signal ∧ signal.events = [⟨5, .inr 0⟩] := by
  obtain ⟨plan, scratch, alignment, calls, state, compiled, unfit, made, aligns, passed, far⟩ := farBeat_runs
  obtain ⟨placed, survey, origin⟩ := compile_plan compiled
  have serves := origin.serves
  have ready := serves.ready
  have typed : ∀ call ∈ calls, call.Typed := fun call member =>
    (Progress.runFrom_abides Ticker.abides ready.sound.numbered ready.sound.slotted ready.furnished
      (by rw [Nat.zero_add, ready.marks]) (fun _ _ _ _ => trivial) passed call member).1
  have ticks : (Context.start 48000 (2 ^ 33)).clock = .ok 0 := rfl
  obtain ⟨moved, advances⟩ : ∃ moved, (Context.start 48000 (2 ^ 33)).advance = .ok moved := ⟨_, rfl⟩
  -- The stations were run by evaluation; copying out a block of this length is left to a lemma.
  obtain ⟨rendered, renders⟩ := Engine.new_renders ready unfit made ticks passed
    (fun call member => (typed call member).orderly _) advances
  let block : Block Ticker := ⟨.new, plan, .start 48000 (2 ^ 33), calls, rendered,
    { plan with nodes := state.nodes, lanes := state.lanes, monitor := state.monitor.countBlock }, moved⟩
  have run : Run Plan.Tended plan [block] block.after :=
    @Run.render _ _ _ _ [] plan block .start (.refl _) renders
  have steady : plan.Steady farOptions.blockSize 0 [block] := by
    refine ⟨?_, ?_, ?_, ?_⟩
    · intro index other found
      obtain ⟨rfl, rfl⟩ : index = 0 ∧ other = block := by
        cases index with
        | zero =>
          cases found
          exact ⟨rfl, rfl⟩
        | succ index => cases found
      exact ticks.trans (by rw [Nat.zero_mul])
    all_goals
      intro other member
      rw [List.mem_singleton.mp member]
    · exact typed
    · exact fun call member => (far.calm call member).1
    · exact fun call member signal cell => (far.calm call member).2 signal (Array.mem_toList_iff.mpr cell)
  have aligned := LatencyGraph.align_aligned (serves.graph ▸ serves.stations.surveyed.inOrder) aligns
  obtain ⟨_, _, clock, losses, made⟩ :=
    (run.mono fun _ _ tended => tended.toAdjusted).made serves (fun other member call among => by
      rw [List.mem_singleton.mp member] at among
      exact (typed call among).orderly _) block (by simp)
  obtain ⟨_, _, _, _, _, lane, _, _, _, _, _, _, reads⟩ :=
    made.reads serves (rfl : farBeat.edge? ⟨0⟩ = some ⟨⟨0⟩, 0, ⟨2⟩, 0, 1⟩) far.running
  refine ⟨plan, block, plan.arrivalOf alignment, lane.buffer, compiled, run, steady, far.lossless, far.running,
    far.alive, ?_, ?_, by simp [far.order], ?_, reads, ?_⟩
  · obtain ⟨_, _, _, _, _, assembled⟩ := origin.assembled
    exact serves.balanced (serves.graph ▸ aligned) fun item => by rw [assembled.intrinsic, origin.latencyOf_eq item]
  · have source := far.source
    have dest := far.dest
    unfold Edge.lag
    dsimp only
    omega
  · have emits : block.emitted 0 0 = [⟨5, .inr 0⟩] := by
      unfold Block.emitted Block.callAt?
      rw [far.emits, Option.getD_some]
    rw [emissions, List.map_singleton, emits]
  · obtain ⟨call, member, dest, rank, source, ranked, found, _, same⟩ := reads
    have heard := far.reads call member dest
    -- The other edge into the port has the next id, so it ranks second.
    have first : rank = 0 := by
      have ids : (farBeat.edgesInto ⟨2⟩ 0).map Prod.fst = [⟨0⟩, ⟨1⟩] := rfl
      have here := congrArg (·[rank]?) ids
      rw [List.getElem?_map, ranked] at here
      rcases rank with _ | _ | rank
      · rfl
      all_goals cases here
    have atFirst := congrArg (·[rank]?) heard
    rw [List.getElem?_map, found, first] at atFirst
    exact same ▸ Option.some.inj atFirst

end Patchbay
