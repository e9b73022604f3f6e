import Patchbay.Proofs.Node.Builtin
import Patchbay.Proofs.Plan.Delays
import Patchbay.Proofs.Render.Streams

/-! Audio arrives aligned.

Once the published delays are those of some latencies, and everything that was in
flight before has gone by, each frame that a node reads is the frame that its
producer wrote as long before as the two arrivals differ.
-/

set_option autoImplicit false

namespace Patchbay

theorem earlierBy_add {α : Type} {first second index : Nat} (items : List α) (reached : second ≤ index) :
    earlierBy (first + second) items index = earlierBy first items (index - second) := by
  unfold earlierBy
  by_cases whole : first ≤ index - second
  · rw [if_pos (by omega), if_pos whole, Nat.sub_sub, Nat.add_comm]
  · rw [if_neg (by omega), if_neg whole]

theorem earlierBy_eq_none {α : Type} {delay index : Nat} (items : List α) (early : index < delay) :
    earlierBy delay items index = none := if_neg (by omega)

theorem start_le_of_late {start count size frame : Nat} (late : start * size ≤ frame)
    (within : frame < (count + 1) * size) : start ≤ count :=
  Nat.le_of_lt_succ (Nat.lt_of_mul_lt_mul_right (late.trans_lt within))

variable {ν : Type} [Node ν] {patch : Patch ν} {options : CompileOptions} {placed : List (Placed ν)}
  {survey : Survey} {first last : Plan ν} {blocks : List (Block ν)}

omit [Node ν] in
theorem Plays.carried_eq {block : Block ν} {blockSize lane channels delay start index : Nat}
    {history : List (Array Sample)}
    (plays : Plays blockSize block.after.lanes lane channels delay start history)
    (inside : index < blockSize) :
    (block.carried lane)[index]? = some (audible channels (earlierBy delay history (start + index))) := by
  obtain ⟨item, found, frames⟩ := plays
  simp only [Block.carried, found, Option.map_some, Option.getD_some, frames, List.getElem?_map,
    List.getElem?_range inside]

theorem Run.alive (run : Run Plan.Adjusted first blocks last)
    (serves : first.Serves patch options placed survey)
    (orderly : ∀ block ∈ blocks, ∀ call ∈ block.calls, call.Orderly options.format) {position : Nat}
    (alive : last.monitor.isFailedAt position = false) :
    ∀ block ∈ blocks, block.after.monitor.isFailedAt position = false := by
  induction run with
  | start => simp
  | @render earlier plan block before changes renders ih =>
    obtain ⟨_, _, clock, losses, made⟩ :=
      Run.made (before.render changes renders) serves orderly block (by simp)
    have sooner := (made.alive_before alive).1
    rw [Monitor.isFailedAt, changes.failed] at sooner
    exact forall_mem_concat.mpr ⟨ih (forall_mem_concat.mp orderly).1 sooner, alive⟩

/-- From the block on at which the wait is published, a running producer's lane
carries what the producer wrote, that much later. -/
theorem Run.output_stream (run : Run Plan.Adjusted first blocks last)
    (serves : first.Serves patch options placed survey) (empty : first.Recalls options.format [])
    (orderly : ∀ block ∈ blocks, ∀ call ∈ block.calls, call.Orderly options.format)
    {producer port channels wait start : Nat} {station : Station}
    (found : first.layout.stations[producer]? = some station)
    (typed : station.outputs[port]? = some (.audio channels)) (fits : wait ≤ station.delayCapacity)
    (alive : last.monitor.isFailedAt producer = false)
    (published : ∀ (index : Nat) block, start ≤ index → blocks[index]? = some block →
      block.before.monitor.latencies.compensation[producer]? = some wait)
    {frame : Nat} (late : start * options.format.blockSize ≤ frame)
    (within : frame < blocks.length * options.format.blockSize) :
    (carried blocks (station.base + port))[frame]? =
      some (audible channels (earlierBy wait (written blocks producer port) frame)) := by
  induction run with
  | start => simp at within
  | @render earlier plan block before changes renders ih =>
    have orderlyEarlier := fun other member => orderly other (List.mem_append_left [block] member)
    obtain ⟨now, layout, clock, losses, made⟩ :=
      Run.made (before.render changes renders) serves orderly block (by simp)
    have recalls := (before.recalls serves empty orderlyEarlier).adjusted changes
    obtain ⟨sooner, runs⟩ := made.alive_before alive
    rw [← layout] at found
    obtain ⟨length, remembers⟩ := recalls.outputs found typed sooner
    obtain ⟨call, member, rfl⟩ := made.exists_call found sooner
    obtain ⟨wanted, atWanted, _, _, plays⟩ :=
      made.output_plays member found (runs call member rfl) typed remembers
    have slot := (now.ready.sound.slotted station (List.mem_of_getElem? found)).outputs typed
    have size := before.length_carried serves orderlyEarlier (layout ▸ slot)
    rw [carried_concat, written_concat]
    rcases Nat.lt_or_ge frame (earlier.length * options.format.blockSize) with old | new
    · rw [List.getElem?_append_left (by omega), earlierBy_append _ (by omega)]
      rw [Monitor.isFailedAt, changes.failed] at sooner
      refine ih orderlyEarlier sooner (fun index other late found => ?_) old
      exact published index other late
        (by rw [List.getElem?_append_left (List.getElem?_eq_some_iff.mp found).1, found])
    · rw [List.length_append, List.length_singleton] at within
      -- The newest block is one of those with the published wait.
      have recent : start ≤ earlier.length := start_le_of_late late within
      rw [Nat.succ_mul] at within
      have same := published earlier.length block recent List.getElem?_concat_length
      rw [atWanted] at same
      cases same
      rw [Nat.min_eq_left fits] at plays
      rw [List.getElem?_append_right (by omega), size, plays.carried_eq (by omega), length,
        Nat.add_sub_cancel' new]

theorem Run.line_stream {plan : Plan ν} {block : Block ν} (before : Run Plan.Adjusted first blocks plan)
    (changes : plan.Adjusted block.before) (renders : block.Renders)
    (serves : first.Serves patch options placed survey) (empty : first.Recalls options.format [])
    (orderly : ∀ other ∈ blocks ++ [block], ∀ call ∈ other.calls, call.Orderly options.format)
    {station : Station} {position channels room rest : Nat} {line : RouteLine}
    (found : first.layout.stations[position]? = some station) (among : line ∈ station.lines)
    (typed : line.type = .audio channels)
    (slot : first.layout.slots[line.source]? = some (.audio channels, room))
    (left : block.before.monitor.latencies.links[line.link]? = some rest) (reach : rest ≤ line.capacity)
    (running : block.before.monitor.isFailedAt position = false) {frame : Nat}
    (inside : frame < options.format.blockSize) :
    (block.carried line.lane)[frame]? = some (audible channels (earlierBy rest
      (carried (blocks ++ [block]) line.source) (blocks.length * options.format.blockSize + frame))) := by
  have orderlyBefore := fun other member => orderly other (List.mem_append_left [block] member)
  obtain ⟨now, layout, clock, losses, made⟩ :=
    Run.made (before.render changes renders) serves orderly block (by simp)
  have here : block.before.layout.stations[position]? = some station := layout ▸ found
  obtain ⟨call, member, rfl⟩ := made.exists_call here running
  have recalls := ((before.recalls serves empty orderlyBefore).adjusted changes).lines here among typed running
  obtain ⟨wanted, atWanted, _, plays⟩ := made.line_plays now.ready member here among typed recalls
  rw [left] at atWanted
  cases atWanted
  rw [Nat.min_eq_left reach, ← carried_concat, before.length_carried serves orderlyBefore slot] at plays
  exact plays.carried_eq inside

/-- The published delays are an alignment's, from some block on. -/
def PublishedFrom (start : Nat) (alignment : Alignment) (blocks : List (Block ν)) : Prop :=
  ∀ (index : Nat) block, start ≤ index → blocks[index]? = some block →
    block.before.monitor.latencies.compensation = alignment.values ∧
      block.before.monitor.latencies.links = alignment.links

/-- The lane that an edge reads carries what the producer wrote, as much later as
the arrivals differ. -/
theorem Run.edge_stream {plan : Plan ν} {block : Block ν} (before : Run Plan.Adjusted first blocks plan)
    (changes : plan.Adjusted block.before) (renders : block.Renders)
    (serves : first.Serves patch options placed survey) (empty : first.Recalls options.format [])
    (orderly : ∀ other ∈ blocks ++ [block], ∀ call ∈ other.calls, call.Orderly options.format)
    {latency : Nat → Nat} {alignment : Alignment} (aligned : survey.graph.Aligned latency alignment)
    (within : ∀ position, latency position ≤ (declaredAt placed).getD position 0) {start : Nat}
    (published : PublishedFrom start alignment (blocks ++ [block])) {edge : Edge} {station : Station}
    {position producer channels : Nat} {feed : Feed}
    (routed : edge.Routed placed survey first.layout.stations station position producer
      (.audio channels) feed)
    (found : first.layout.stations[position]? = some station)
    (running : block.before.monitor.isFailedAt position = false)
    (alive : block.after.monitor.isFailedAt producer = false) {frame : Nat}
    (inside : frame < options.format.blockSize)
    (late : start = 0 ∨ start * options.format.blockSize + survey.bound ≤
      blocks.length * options.format.blockSize + frame) :
    alignment.arrivalAt producer + latency producer ≤ alignment.arrivalAt position ∧
      (block.carried feed.lane)[frame]? = some (audible channels (earlierBy
        (alignment.arrivalAt position - (alignment.arrivalAt producer + latency producer))
        (written (blocks ++ [block]) producer edge.sourcePort)
        (blocks.length * options.format.blockSize + frame))) := by
  have sofar := before.render changes renders
  obtain ⟨now, layout, clock, losses, made⟩ := sofar.made serves orderly block (by simp)
  have orderlyBefore := fun other member => orderly other (List.mem_append_left [block] member)
  obtain ⟨upstream, atProducer, typed, base⟩ := routed.output
  obtain ⟨_, _, stationed⟩ := serves.stations.place_of atProducer
  obtain ⟨wait, waits, fits, ways⟩ := serves.stations.delays routed found nofun aligned within
  rw [← stationed.delayCapacity] at fits
  have recent : start ≤ blocks.length := by
    rcases late with rfl | late
    · exact Nat.zero_le _
    · refine start_le_of_late (Nat.le_of_add_right_le late) ?_
      rw [Nat.succ_mul]
      omega
  obtain ⟨compensated, linked⟩ := published blocks.length block recent List.getElem?_concat_length
  -- The producer's lane carries the producer's stream, after the producer's wait.
  have stream : ∀ other, start * options.format.blockSize ≤ other →
      other < blocks.length * options.format.blockSize + options.format.blockSize →
      (carried (blocks ++ [block]) feed.source)[other]? = some (audible channels
        (earlierBy wait (written (blocks ++ [block]) producer edge.sourcePort) other)) := by
    intro other above below
    rw [base]
    refine sofar.output_stream serves empty orderly atProducer typed fits alive ?_ above ?_
    · intro index other late found
      rw [(published index other late found).1]
      exact waits
    · rw [List.length_append, List.length_singleton, Nat.succ_mul]
      exact below
  have slot := (now.ready.sound.slotted upstream (List.mem_of_getElem? (layout ▸ atProducer))).outputs typed
  rw [layout, ← base] at slot
  have size := before.length_carried serves orderlyBefore slot
  rcases ways with ⟨same, balance⟩ | ⟨link, rest, among, left, reach, bounded, balance⟩
  · have delay : alignment.arrivalAt position - (alignment.arrivalAt producer + latency producer) = wait := by
      omega
    refine ⟨by omega, ?_⟩
    have newest := stream (blocks.length * options.format.blockSize + frame) ?_ (by omega)
    · rwa [carried_concat, List.getElem?_append_right (by omega), size, Nat.add_sub_cancel_left, ← same,
        ← delay] at newest
    · have := Nat.mul_le_mul_right options.format.blockSize recent
      omega
  · refine ⟨by omega, ?_⟩
    have delay : alignment.arrivalAt position - (alignment.arrivalAt producer + latency producer) =
        wait + rest := by omega
    rw [before.line_stream changes renders serves empty orderly found among rfl slot (linked ▸ left) reach
      running inside, delay]
    by_cases heard : rest ≤ blocks.length * options.format.blockSize + frame
    · have reached : start * options.format.blockSize ≤
          blocks.length * options.format.blockSize + frame - rest := by
        rcases late with rfl | late
        · rw [Nat.zero_mul]
          exact Nat.zero_le _
        · omega
      rw [earlierBy_add _ heard, earlierBy, if_pos heard, stream _ reached (by omega)]
      rfl
    · -- Nothing was in flight before the first block.
      rw [earlierBy_eq_none _ (by omega), earlierBy_eq_none _ (by omega)]

structure HeardAt (channels delay : Nat) (history : List (Array Sample)) (index : Nat) (frame : Array Sample) :
    Prop where
  late : delay ≤ index → history[index - delay]? = some frame
  early : index < delay → frame = Array.replicate (max channels 1) 0

theorem heardAt_audible {channels delay index : Nat} {history : List (Array Sample)}
    (reached : index < history.length) :
    HeardAt channels delay history index (audible channels (earlierBy delay history index)) where
  late above := by
    rw [earlierBy, if_pos above, List.getElem?_eq_getElem (by omega)]
    rfl
  early below := by
    rw [earlierBy_eq_none _ below]
    rfl

theorem HeardAt.eq_audible {channels delay index : Nat} {history : List (Array Sample)} {frame : Array Sample}
    (heard : HeardAt channels delay history index frame) :
    frame = audible channels (earlierBy delay history index) := by
  unfold earlierBy
  split
  · rename_i above
    rw [heard.late above]
    rfl
  · exact heard.early (by omega)

theorem HeardAt.extend {channels delay index : Nat} {before after : List (Array Sample)}
    {frame : Array Sample} (heard : HeardAt channels delay before index frame) (extends_ : before <+: after) :
    HeardAt channels delay after index frame where
  late above := getElem?_of_starts extends_ (heard.late above)
  early := heard.early

omit [Node ν] in
theorem written_starts {some_ all : List (Block ν)} (extends_ : some_ <+: all) (position port : Nat) :
    written some_ position port <+: written all position port := by
  obtain ⟨more, rfl⟩ := extends_
  unfold written
  rw [List.flatMap_append]
  exact List.prefix_append _ _

/-- What an edge's lane carries in any block was written by the producer as much
earlier as the arrivals differ. -/
theorem Run.hears (run : Run Plan.Adjusted first blocks last)
    (serves : first.Serves patch options placed survey) (empty : first.Recalls options.format [])
    (orderly : ∀ block ∈ blocks, ∀ call ∈ block.calls, call.Orderly options.format)
    {latency : Nat → Nat} {alignment : Alignment} (aligned : survey.graph.Aligned latency alignment)
    (within : ∀ position, latency position ≤ (declaredAt placed).getD position 0) {start : Nat}
    (published : PublishedFrom start alignment blocks) {edge : Edge} {station : Station}
    {position producer channels : Nat} {feed : Feed}
    (routed : edge.Routed placed survey first.layout.stations station position producer
      (.audio channels) feed)
    (found : first.layout.stations[position]? = some station) {index : Nat} {block : Block ν}
    (atIndex : blocks[index]? = some block)
    (running : block.before.monitor.isFailedAt position = false)
    (alive : block.after.monitor.isFailedAt producer = false) {frame : Nat}
    (inside : frame < options.format.blockSize)
    (late : start = 0 ∨ start * options.format.blockSize + survey.bound ≤
      index * options.format.blockSize + frame) :
    ∃ heard, (block.carried feed.lane)[frame]? = some heard ∧
      HeardAt channels (alignment.arrivalAt position - (alignment.arrivalAt producer + latency producer))
        (written blocks producer edge.sourcePort) (index * options.format.blockSize + frame) heard := by
  -- What is written later does not change what was heard, so the run is cut after this block.
  obtain ⟨plan, before, changes, renders⟩ := run.upTo atIndex
  obtain ⟨size, upTo⟩ := take_concat_prefix atIndex
  have orderly : ∀ other ∈ blocks.take index ++ [block], ∀ call ∈ other.calls, call.Orderly options.format :=
    fun other member => orderly other (upTo.subset member)
  have published : PublishedFrom start alignment (blocks.take index ++ [block]) :=
    fun position other late found => published position other late (getElem?_of_starts upTo found)
  rw [← size] at late ⊢
  have newest := Run.edge_stream before changes renders serves empty orderly aligned within published routed
    found running alive inside late
  have sofar := before.render changes renders
  obtain ⟨_, layout, _, _, made⟩ := sofar.made serves orderly block (by simp)
  obtain ⟨upstream, atProducer, typed, _⟩ := routed.output
  rw [← layout, ← made.2.layout] at atProducer
  have length := ((sofar.recalls serves empty orderly).outputs atProducer typed alive).1
  refine ⟨_, newest.2, (heardAt_audible ?_).extend (written_starts upTo _ _)⟩
  rw [length, List.length_append, List.length_singleton, Nat.succ_mul]
  omega

/-! ## The theorem -/

def Patch.AudioEdge (patch : Patch ν) (id : EdgeId) (edge : Edge) (channels : Nat) : Prop :=
  patch.edge? id = some edge ∧
    ∃ spec, patch.OutputAt edge.source edge.sourcePort spec ∧ spec.type = .audio channels

/-- What an edge has to wait for its consumer's arrival. -/
def Edge.lag (latency arrival : NodeId → Nat) (edge : Edge) : Nat :=
  arrival edge.dest - arrival edge.source - latency edge.source

/-- A path of audio edges, and the latency that a signal picks up on it from nodes
and waits together. -/
inductive Patch.Travels (patch : Patch ν) (latency arrival : NodeId → Nat) (origin : NodeId) :
    NodeId → Nat → Prop where
  | start : Travels patch latency arrival origin origin 0
  | step {total channels : Nat} {id : EdgeId} {edge : Edge} : patch.AudioEdge id edge channels →
      Travels patch latency arrival origin edge.source total →
      Travels patch latency arrival origin edge.dest (total + latency edge.source + edge.lag latency arrival)

theorem Patch.Travels.total_eq {latency arrival : NodeId → Nat}
    (forward : ∀ id edge channels, patch.AudioEdge id edge channels →
      arrival edge.source + latency edge.source ≤ arrival edge.dest)
    {origin dest : NodeId} {total : Nat} (path : patch.Travels latency arrival origin dest total) :
    arrival origin + total = arrival dest := by
  induction path with
  | start => exact Nat.add_zero _
  | step audio _ ih =>
    have := forward _ _ _ audio
    unfold Edge.lag
    omega

/-- The waits of the edges make good what the latencies of paths differ. -/
structure Patch.Balanced (patch : Patch ν) (latency arrival : NodeId → Nat) : Prop where
  latest : ∀ id node, patch.node? id = some node → patch.IsArrival latency id (arrival id)
  forward : ∀ id edge channels, patch.AudioEdge id edge channels →
    arrival edge.source + latency edge.source ≤ arrival edge.dest
  paths : ∀ origin dest total other, patch.Travels latency arrival origin dest total →
    patch.Travels latency arrival origin dest other → total = other

def Plan.arrivalOf (plan : Plan ν) (alignment : Alignment) (id : NodeId) : Nat :=
  alignment.arrivalAt ((plan.monitor.position? id).getD 0)

section

variable {plan : Plan ν} {latency : NodeId → Nat} {latencyAt : Nat → Nat} {alignment : Alignment}
  (serves : plan.Serves patch options placed survey)

include serves in
theorem Plan.Serves.arrivalOf_eq {position : Nat} {place : Placed ν} (item : placed[position]? = some place) :
    plan.arrivalOf alignment place.id = alignment.arrivalAt position := by
  rw [arrivalOf, serves.position?_eq item, Option.getD_some]

variable (aligned : survey.graph.Aligned latencyAt alignment)
  (agree : ∀ {position : Nat} {place}, placed[position]? = some place → latencyAt position = latency place.id)
include serves aligned agree

theorem Plan.Serves.forward {id : EdgeId} {edge : Edge} (found : patch.edge? id = some edge) :
    plan.arrivalOf alignment edge.source + latency edge.source ≤ plan.arrivalOf alignment edge.dest := by
  obtain ⟨position, _, place, station, _, feed, item, dest, _, _, _, _, producer, type, routed⟩ :=
    serves.stations.exists_routed found
  obtain ⟨link, atLink⟩ := serves.stations.surveyed.inOrder.exists_link routed.consumer
  obtain ⟨wait, rest, _, _, balance⟩ := aligned.balance atLink
  obtain ⟨origin, atSource, source⟩ := routed.source
  rw [← dest, ← source, serves.arrivalOf_eq item, serves.arrivalOf_eq atSource, ← agree atSource]
  omega

theorem Plan.Serves.balanced : patch.Balanced latency (plan.arrivalOf alignment) := by
  have surveyed := serves.stations.surveyed
  have forward : ∀ id edge channels, patch.AudioEdge id edge channels →
      plan.arrivalOf alignment edge.source + latency edge.source ≤ plan.arrivalOf alignment edge.dest :=
    fun id edge channels audio => serves.forward aligned agree audio.1
  refine ⟨?_, forward, ?_⟩
  · intro id node present
    obtain ⟨position, item⟩ := surveyed.placement.exists_position present
    have inside : position < survey.graph.size := by
      rw [surveyed.size]
      exact (List.getElem?_eq_some_iff.mp item).1
    have arrives := (surveyed.isArrival_iff agree item).mp (aligned.arrival inside)
    rwa [← serves.arrivalOf_eq item] at arrives
  · intro origin dest total other first second
    have := first.total_eq forward
    have := second.total_eq forward
    omega

end

/-- Once the published delays are an alignment of latencies that the nodes declare,
every audio edge carries its producer's frames as late as the arrivals of its ends
ask for. What a producer writes is a stream of frames because every call goes through
the accessors of its ports (`Call.Typed`), which keep each block's shape. -/
theorem audio_arrives_aligned {plan : Plan ν} (compiled : compile patch options = .ok (.ok plan))
    (run : Run Plan.Adjusted plan blocks last) (typed : ∀ block ∈ blocks, ∀ call ∈ block.calls, call.Typed)
    {latency : NodeId → Nat} (declared : ∀ id, latency id ≤ patch.declared id) {alignment : Alignment}
    (aligns : plan.monitor.graph.align (plan.monitor.order.map latency).toArray = .ok alignment)
    {start : Nat} (published : PublishedFrom start alignment blocks) :
    ∃ arrival, patch.Balanced latency arrival ∧
      ∀ id edge channels, patch.AudioEdge id edge channels →
      ∀ (index : Nat) block, blocks[index]? = some block →
      block.before.monitor.isFailed edge.dest = false → block.after.monitor.isFailed edge.source = false →
      ∀ frame < options.blockSize, start = 0 ∨
        start * options.blockSize + plan.monitor.compensationBound ≤ index * options.blockSize + frame →
      ∃ position signal heard, plan.monitor.order[position]? = some edge.source ∧
        block.Reads patch plan.monitor.order id edge signal ∧ signal.frames[frame]? = some heard ∧
        HeardAt channels (edge.lag latency arrival) (written blocks position edge.sourcePort)
          (index * options.blockSize + frame) heard := by
  obtain ⟨placed, survey, origin⟩ := compile_plan compiled
  have serves := origin.serves
  have surveyed := serves.stations.surveyed
  have orderly : ∀ block ∈ blocks, ∀ call ∈ block.calls, call.Orderly options.format :=
    fun block member call among => (typed block member call among).orderly options.format
  rw [serves.graph, serves.order] at aligns
  have aligned := LatencyGraph.align_aligned surveyed.inOrder aligns
  have agree : ∀ {position : Nat} {place}, placed[position]? = some place →
      (((placed.map (·.id)).map latency).toArray.getD position 0) = latency place.id := by
    intro position place item
    simp [Array.getD_eq_getD_getElem?, item]
  have within : ∀ position, (((placed.map (·.id)).map latency).toArray.getD position 0) ≤
      (declaredAt placed).getD position 0 := by
    intro position
    cases item : placed[position]? with
    | some place =>
      rw [agree item, Mirrors.declared_agrees surveyed.placement item]
      exact declared place.id
    | none => simp [Array.getD_eq_getD_getElem?, item]
  refine ⟨plan.arrivalOf alignment, serves.balanced aligned agree, ?_⟩
  rintro id edge channels ⟨found, spec, atPort, type⟩ index block atIndex running alive frame inside late
  obtain ⟨before, layout, clock, losses, made⟩ :=
    run.made serves orderly block (List.mem_of_getElem? atIndex)
  obtain ⟨position, producer, station, carries, feed, lane, atDest, atSource, atStation, routed, runs, atLane,
    reads⟩ := made.reads before found running
  rw [before.order, ← serves.order] at atDest atSource reads
  rw [layout] at atStation routed
  obtain ⟨place, item, dest⟩ := serves.place_at atDest
  obtain ⟨place', item', source⟩ := serves.place_at atSource
  have alive' := (before.rendered made.2).isFailed_eq item'
  rw [source, alive] at alive'
  -- The edge has the type of its producer's port.
  obtain ⟨upstream, atUpstream, output, _⟩ := routed.output
  have typed := (serves.stations.output_iff item' atUpstream).mpr ⟨spec, source ▸ atPort, type⟩
  rw [output] at typed
  cases typed
  obtain ⟨heard, carried, late⟩ := run.hears serves (origin.recalls_nil serves) orderly aligned within
    published routed atStation atIndex runs alive'.symm inside (serves.bound ▸ late)
  refine ⟨producer, lane.buffer, heard, atSource, reads, ?_, ?_⟩
  · simpa [Block.carried, atLane] using carried
  · rwa [Edge.lag, ← dest, ← source, serves.arrivalOf_eq item, serves.arrivalOf_eq item', ← agree item',
      Nat.sub_sub]

/-! ## A small patch -/

/-- An impulse into a gain, directly and through a delay of two frames. -/
def echo : Patch Builtin where
  nodes := #[some (.impulse { channels := 1 }),
    some (.delay { samples := 2, maxSamples := 2, channels := 1, line := ⟨{ capacity := 2 }, 1⟩ }),
    some (.gain ⟨1, 1⟩)]
  edges := #[some ⟨⟨0⟩, 0, ⟨1⟩, 0, 1⟩, some ⟨⟨1⟩, 0, ⟨2⟩, 0, 1⟩, some ⟨⟨0⟩, 0, ⟨2⟩, 0, 1⟩]
  sink := none

theorem echo_whole {id : NodeId} {node : Builtin} (found : echo.node? id = some node) : node.Whole := by
  obtain ⟨_ | _ | _ | _⟩ := id <;> cases found
  · trivial
  · intro frame member
    simp at member
  · trivial

theorem echo_renders : ∃ (plan : Plan Builtin) (block : Block Builtin) (alignment : Alignment),
    compile echo { blockSize := 4 } = .ok (.ok plan) ∧ Run Eq plan [block] block.after ∧
      plan.monitor.graph.align (plan.monitor.order.map echo.declared).toArray = .ok alignment ∧
      PublishedFrom 0 alignment [block] ∧ block.before.monitor.isFailed ⟨2⟩ = false ∧
      block.after.monitor.isFailed ⟨0⟩ = false := by
  obtain ⟨plan, compiled, ⟨calls, rendered, after, moved⟩, renders, alignment, aligns, compensation, links,
      before, alive⟩ : ∃ plan, compile echo { blockSize := 4 } = .ok (.ok plan) ∧
      ∃ block, Engine.new.render plan (.start 48000 4) = .ok block ∧
      ∃ alignment, plan.monitor.graph.align (plan.monitor.order.map echo.declared).toArray = .ok alignment ∧
        plan.monitor.latencies.compensation = alignment.values ∧ plan.monitor.latencies.links = alignment.links ∧
        plan.monitor.isFailed ⟨2⟩ = false ∧ block.2.2.1.monitor.isFailed ⟨0⟩ = false := by decide +kernel
  refine ⟨plan, ⟨.new, plan, .start 48000 4, calls, rendered, after, moved⟩, alignment, compiled,
    .render .start rfl renders, aligns, ?_, before, alive⟩
  intro index block _ found
  rw [List.mem_singleton.mp (List.mem_of_getElem? found)]
  exact ⟨compensation, links⟩

theorem echo_aligned : ∃ (plan : Plan Builtin) (block : Block Builtin) (arrival : NodeId → Nat),
    compile echo { blockSize := 4 } = .ok (.ok plan) ∧ Run Plan.Adjusted plan [block] block.after ∧
      echo.Balanced echo.declared arrival ∧ ∀ frame < 4, ∃ position signal heard,
        plan.monitor.order[position]? = some ⟨0⟩ ∧
        block.Reads echo plan.monitor.order ⟨2⟩ ⟨⟨0⟩, 0, ⟨2⟩, 0, 1⟩ signal ∧
        signal.frames[frame]? = some heard ∧
        HeardAt 1 (Edge.lag echo.declared arrival ⟨⟨0⟩, 0, ⟨2⟩, 0, 1⟩) (written [block] position 0)
          (0 * 4 + frame) heard := by
  obtain ⟨plan, block, alignment, compiled, run, aligns, published, running, alive⟩ := echo_renders
  obtain ⟨placed, survey, origin⟩ := compile_plan compiled
  obtain ⟨_, _, typed⟩ := run.typed Builtin.abides (fun same => same ▸ .adjusted (.refl _))
    (fun same kept => same ▸ kept) origin.serves (origin.keeps fun _ _ => echo_whole)
  have adjusted : Run Plan.Adjusted plan [block] block.after := run.mono fun plan after same => by
    subst same
    exact .refl plan
  obtain ⟨arrival, balanced, heard⟩ :=
    audio_arrives_aligned compiled adjusted typed (fun id => Nat.le_refl (echo.declared id)) aligns published
  have audio : echo.AudioEdge ⟨2⟩ ⟨⟨0⟩, 0, ⟨2⟩, 0, 1⟩ 1 := ⟨rfl, .audio "out" 1, ⟨_, rfl, rfl⟩, rfl⟩
  exact ⟨plan, block, arrival, compiled, adjusted, balanced, fun frame inside =>
    heard _ _ _ audio 0 block rfl running alive frame inside (.inl rfl)⟩

end Patchbay
