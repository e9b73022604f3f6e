import Patchbay.Proofs.Patch.Removal
import Patchbay.Proofs.Render.Fresh
import Patchbay.Proofs.Render.Sounding

/-! Only what leads to the sink is heard.

A node that does not lead to the sink has no part in what the sink writes, however
it changes the delays elsewhere. It can change one delay on the way out: the wait
of the sink itself, which goes by the nodes that the sink feeds. So a meter on the
sink can make the patch late, if it reads something later as well.
-/

set_option autoImplicit false

namespace Patchbay

/-! ## Waits -/

/-- A node waits until the first of the nodes that it feeds is reached, and not at all
if it feeds none. -/
structure Patch.Waits {ν : Type} (patch : Patch ν) (latency arrival : NodeId → Nat) (id : NodeId) (wait : Nat) :
    Prop where
  inTime : ∀ dest, patch.Feeds id dest → arrival id + latency id + wait ≤ arrival dest
  tight : (∃ dest, patch.Feeds id dest ∧ arrival id + latency id + wait = arrival dest) ∨
    wait = 0 ∧ ∀ dest, ¬ patch.Feeds id dest

namespace Patch.Waits

variable {ν : Type} {patch other : Patch ν} {latency latency' arrival arrival' : NodeId → Nat} {id : NodeId}
  {wait wait' : Nat}

theorem le (here : patch.Waits latency arrival id wait) (there : other.Waits latency' arrival' id wait')
    (feeds : ∀ dest, other.Feeds id dest ↔ patch.Feeds id dest)
    (leaves : arrival' id + latency' id = arrival id + latency id)
    (arrives : ∀ dest, patch.Feeds id dest → arrival' dest = arrival dest) : wait' ≤ wait := by
  rcases here.tight with ⟨dest, fed, tight⟩ | ⟨_, none⟩
  · have := there.inTime dest ((feeds dest).mpr fed)
    have := arrives dest fed
    omega
  · rcases there.tight with ⟨dest, fed, _⟩ | ⟨zero, _⟩
    · exact absurd ((feeds dest).mp fed) (none dest)
    · exact zero.trans_le (Nat.zero_le wait)

/-- The wait of a node depends on the nodes that it feeds and on no others. -/
theorem eq (here : patch.Waits latency arrival id wait) (there : other.Waits latency' arrival' id wait')
    (feeds : ∀ dest, other.Feeds id dest ↔ patch.Feeds id dest)
    (leaves : arrival' id + latency' id = arrival id + latency id)
    (arrives : ∀ dest, patch.Feeds id dest → arrival' dest = arrival dest) : wait' = wait :=
  Nat.le_antisymm (here.le there feeds leaves arrives) (there.le here (fun dest => (feeds dest).symm) leaves.symm
    fun dest fed => (arrives dest ((feeds dest).mp fed)).symm)

end Patch.Waits

/-! ## What leads to the sink -/

section

variable {patch rest : Patch Builtin} {options : CompileOptions} {placed placed' : List (Placed Builtin)}
  {survey survey' : Survey} {plan plan' last last' : Plan Builtin} {blocks blocks' : List (Block Builtin)}
  {alignment alignment' : Alignment}

theorem CompiledFrom.arrives (compiled : CompiledFrom patch options placed survey plan)
    (aligns : survey.graph.align survey.intrinsic = .ok alignment) {id : NodeId} {node : Builtin}
    (present : patch.node? id = some node) : patch.IsArrival patch.latency id (plan.arrivalOf alignment id) :=
  (compiled.serves.balanced (LatencyGraph.align_aligned compiled.surveyed.inOrder aligns)
    compiled.surveyed.latency_agrees).latest id node present

theorem CompiledFrom.waits (compiled : CompiledFrom patch options placed survey plan)
    (aligns : survey.graph.align survey.intrinsic = .ok alignment) {position wait : Nat} {place : Placed Builtin}
    (item : placed[position]? = some place) (waits : alignment.values[position]? = some wait) :
    patch.Waits patch.latency (plan.arrivalOf alignment) place.id wait := by
  have surveyed := compiled.surveyed
  have aligned := LatencyGraph.align_aligned surveyed.inOrder aligns
  have arrives := @Plan.Serves.arrivalOf_eq _ _ _ _ _ _ _ alignment compiled.serves
  have leaves := surveyed.latency_agrees item
  refine ⟨?_, ?_⟩
  · intro dest feeds
    obtain ⟨consumer, member, other, atConsumer, rfl⟩ := surveyed.exists_consumer item feeds
    obtain ⟨link, linked⟩ := surveyed.inOrder.exists_link member
    obtain ⟨_, rest, again, _, balance⟩ := aligned.balance linked
    rw [waits] at again
    cases again
    rw [arrives item, arrives atConsumer]
    omega
  · -- A node that feeds nobody does not wait, any other waits for the consumer that has nothing left.
    by_cases idle : survey.graph.consumersOf position = []
    · right
      have inside : position < survey.graph.size := by
        rw [surveyed.size]
        exact (List.getElem?_eq_some_iff.mp item).1
      have zero := aligned.idle inside idle
      rw [waits] at zero
      refine ⟨Option.some.inj zero, fun dest feeds => ?_⟩
      obtain ⟨consumer, member, _⟩ := surveyed.exists_consumer item feeds
      rw [idle] at member
      cases member
    · left
      obtain ⟨consumer, link, linked, none⟩ := aligned.tight idle
      obtain ⟨_, rest, again, left, balance⟩ := aligned.balance linked
      rw [waits] at again
      rw [none] at left
      cases again
      cases left
      obtain ⟨dest, origin, atConsumer, atOrigin, feeds⟩ :=
        surveyed.mem_consumersOf.mp (surveyed.inOrder.mem_of_link linked)
      rw [item] at atOrigin
      cases atOrigin
      refine ⟨dest.id, feeds, ?_⟩
      rw [arrives item, arrives atConsumer]
      omega

variable {gone sink : NodeId} {removed : Builtin} (compiled : CompiledFrom patch options placed survey plan)
  (compiled' : CompiledFrom rest options placed' survey' plan')
  (aligns : survey.graph.align survey.intrinsic = .ok alignment)
  (aligns' : survey'.graph.align survey'.intrinsic = .ok alignment')
  (removes : patch.remove gone = .ok (removed, rest)) (apart : ¬ Relation.ReflTransGen patch.Feeds gone sink)
include compiled compiled' aligns aligns' removes apart

theorem CompiledFrom.arrival_same {id : NodeId} {node : Builtin} (leads : Relation.ReflTransGen patch.Feeds id sink)
    (present : patch.node? id = some node) : plan'.arrivalOf alignment' id = plan.arrivalOf alignment id := by
  have present' := (Patch.remove_node? removes (Patch.ne_of_leads apart leads)).trans present
  have arrives := compiled'.arrives aligns' present'
  exact IsGreatest.unique ((Patch.remove_isArrival removes apart leads).mp arrives) (compiled.arrives aligns present)

theorem CompiledFrom.lag_same {id : EdgeId} {edge : Edge} (found : patch.edge? id = some edge)
    (leads : Relation.ReflTransGen patch.Feeds edge.dest sink) :
    edge.lag rest.latency (plan'.arrivalOf alignment') = edge.lag patch.latency (plan.arrivalOf alignment) := by
  have sooner : Relation.ReflTransGen patch.Feeds edge.source sink := .head ⟨id, edge, found, rfl, rfl⟩ leads
  obtain ⟨⟨_, source⟩, _, dest⟩ := Patch.Fits.joined compiled.surveyed.fits found
  rw [Edge.lag, Edge.lag, compiled.arrival_same compiled' aligns aligns' removes apart leads dest,
    compiled.arrival_same compiled' aligns aligns' removes apart sooner source,
    Patch.remove_latency removes apart sooner]

theorem CompiledFrom.plays_same {total : Nat} {stream stream' : NodeId → Nat → List (Array Sample)}
    (performs : patch.Performs (Edge.lag patch.latency (plan.arrivalOf alignment)) total stream)
    (performs' : rest.Performs (Edge.lag rest.latency (plan'.arrivalOf alignment')) total stream') {node : Builtin}
    (present : patch.node? sink = some node) {port : Nat} (inside : port < (Node.outputs node).length) :
    stream' sink port = stream sink port := by
  have present' := (Patch.remove_node? removes (Patch.ne_of_leads apart .refl)).trans present
  have same := performs.agree performs' compiled.serves.ranked (Relation.ReflTransGen patch.Feeds · sink)
    (fun id leads => ⟨Patch.remove_node? removes (Patch.ne_of_leads apart leads),
      Patch.remove_edgesInto removes apart leads 0⟩)
    (fun id leads entry into => by
      obtain ⟨found, rfl, _⟩ := Patch.mem_edgesInto.mp into
      exact ⟨.head ⟨entry.1, entry.2, found, rfl, rfl⟩ leads,
        compiled.lag_same compiled' aligns aligns' removes apart found leads,
        Patch.exists_feeder compiled.surveyed.fits into⟩)
    (Nat.le_refl total) (Nat.le_refl total) .refl present port inside
  rwa [List.take_of_length_le (performs.length present inside).le,
    List.take_of_length_le (performs'.length present' inside).le] at same

end

/-- When a node that does not lead to the sink is removed, the sink goes on writing the
same, and a plan answers with it after the sink's own wait. This wait is the same too,
unless the removed node is or leads to one that reads the sink. -/
theorem only_leading_heard {patch rest : Patch Builtin} {gone sink : NodeId} {removed : Builtin}
    (proper : ∀ id node, patch.node? id = some node → node.Proper)
    (removes : patch.remove gone = .ok (removed, rest)) (designated : patch.sink = some sink)
    (apart : ¬ Relation.ReflTransGen patch.Feeds gone sink) {options : CompileOptions} {plan plan' : Plan Builtin}
    (compiled : compile patch options = .ok (.ok plan)) (compiled' : compile rest options = .ok (.ok plan')) :
    (plan.layout.Mergeable → plan.Startable options.blockSize) ∧
    (plan'.layout.Mergeable → plan'.Startable options.blockSize) ∧
    ∃ node wait wait', patch.node? sink = some node ∧ plan.monitor.compensation? sink = some wait ∧
      plan'.monitor.compensation? sink = some wait' ∧
      ((∀ dest, patch.Feeds sink dest → ¬ Relation.ReflTransGen patch.Feeds gone dest) → wait' = wait) ∧
      ∀ blocks blocks' last last', Run Eq plan blocks last → Run Eq plan' blocks' last' →
        blocks'.length = blocks.length → ∃ heard, heard.length = blocks.length * options.blockSize ∧
          sounded blocks = late node.channels wait heard ∧ sounded blocks' = late node.channels wait' heard := by
  obtain ⟨placed, survey, origin⟩ := compile_plan compiled
  obtain ⟨placed', survey', origin'⟩ := compile_plan compiled'
  have proper' : ∀ id node, rest.node? id = some node → node.Proper := fun id node there =>
    proper id node (Patch.remove_present removes there)
  refine ⟨origin.startable Builtin.acts fun id node there => (proper id node there).fits,
    origin'.startable Builtin.acts fun id node there => (proper' id node there).fits, ?_⟩
  obtain ⟨_, _, _, _, _, assembled⟩ := origin.assembled
  obtain ⟨_, _, _, _, _, assembled'⟩ := origin'.assembled
  obtain ⟨alignment, aligns, compensation, links⟩ := assembled.published
  obtain ⟨alignment', aligns', compensation', links'⟩ := assembled'.published
  obtain ⟨position, port, place, wait, sinkAt, waits, published⟩ := origin.exists_sink compensation aligns
  obtain ⟨position', port', place', wait', sinkAt', waits', published'⟩ := origin'.exists_sink compensation' aligns'
  -- Both plans answer with the same port of the same node.
  obtain rfl := sinkAt.chosen sink designated
  have stays := Patch.ne_of_leads apart .refl
  have same := sinkAt'.chosen place.id ((Patch.remove_sink removes).mpr ⟨designated, stays⟩)
  have present := origin.surveyed.placement.present place (List.mem_of_getElem? sinkAt.item)
  have present' := origin'.surveyed.placement.present place' (List.mem_of_getElem? sinkAt'.item)
  rw [same, Patch.remove_node? removes stays, present, Option.some.injEq] at present'
  obtain rfl := sinkAt.port_unique sinkAt' present'.symm
  refine ⟨place.node, wait, wait', present, published, same ▸ published', fun readers => ?_, ?_⟩
  · refine (origin.waits aligns sinkAt.item waits).eq (same ▸ origin'.waits aligns' sinkAt'.item waits') ?_ ?_ ?_
    · intro dest
      exact ⟨Patch.remove_feeds_of removes, fun feeds =>
        (Patch.remove_feeds removes (readers dest feeds) .refl).mpr feeds⟩
    · rw [origin.arrival_same origin' aligns aligns' removes apart .refl present,
        Patch.remove_latency removes apart .refl]
    · intro dest feeds
      obtain ⟨_, _, found, _, rfl⟩ := id feeds
      obtain ⟨_, _, there⟩ := Patch.Fits.joined origin.surveyed.fits found
      exact origin.arrival_same origin' aligns aligns' removes (readers _ feeds) .refl there
  · intro blocks blocks' last last' run run' length
    have sounds := run.sounds origin proper compensation links aligns sinkAt waits
    have sounds' := run'.sounds origin' proper' compensation' links' aligns' sinkAt' waits'
    rw [length] at sounds'
    obtain ⟨spec, atPort, _⟩ := sinkAt.audio
    have plays := origin.plays_same origin' aligns aligns' removes apart sounds.performs sounds'.performs present
      (List.getElem?_eq_some_iff.mp atPort).1
    refine ⟨plan.streamOf blocks place.id port, sounds.length, sounds.frames, ?_⟩
    rw [sounds'.frames, same, plays, ← present']

/-! ## A meter on the sink -/

/-- An impulse that is heard goes to a meter, which also reads a delay. -/
def metered : Patch Builtin where
  nodes := #[some (.impulse { channels := 1 }),
    some (.delay { samples := 3, maxSamples := 3, channels := 1, line := ⟨{ capacity := 3 }, 1⟩ }), some (.gain ⟨1, 1⟩)]
  edges := #[some ⟨⟨0⟩, 0, ⟨2⟩, 0, 1⟩, some ⟨⟨1⟩, 0, ⟨2⟩, 0, 1⟩]
  sink := some ⟨0⟩

def unmetered : Patch Builtin := { metered with nodes := metered.nodes.setIfInBounds 2 none, edges := #[none, none] }

theorem metered_remove : metered.remove ⟨2⟩ = .ok (.gain ⟨1, 1⟩, unmetered) := by
  simp [Patch.remove_eq, Patch.node?, metered, unmetered]

theorem metered_proper {id : NodeId} {node : Builtin} (found : metered.node? id = some node) : node.Proper := by
  obtain ⟨_ | _ | _ | _⟩ := id <;> cases found
  · exact ⟨trivial, trivial⟩
  · exact ⟨rfl, fun frame member => absurd member (Array.not_mem_empty frame), rfl⟩
  · exact ⟨trivial, trivial⟩

theorem metered_apart : ¬ Relation.ReflTransGen metered.Feeds ⟨2⟩ ⟨0⟩ := by
  intro path
  rcases path.cases_head with same | ⟨next, ⟨⟨_ | _ | _⟩, edge, found, source, _⟩, _⟩
  · cases same
  all_goals
    cases found
    try cases source

/-- With the meter the impulse is heard three frames later than without. -/
theorem metered_heard : ∃ (plan plan' last last' : Plan Builtin) (blocks blocks' : List (Block Builtin))
    (heard : List (Array Sample)), compile metered { blockSize := 4 } = .ok (.ok plan) ∧
      compile unmetered { blockSize := 4 } = .ok (.ok plan') ∧ Run Eq plan blocks last ∧ Run Eq plan' blocks' last' ∧
      blocks.length = 2 ∧ blocks'.length = 2 ∧ heard.length = 8 ∧ sounded blocks = late 1 3 heard ∧
      sounded blocks' = late 1 0 heard := by
  obtain ⟨plan, compiled, plan', compiled', samples, routes, events, bound, samples', routes', events',
      bound', late, early⟩ : ∃ plan, compile metered { blockSize := 4 } = .ok (.ok plan) ∧
      ∃ plan', compile unmetered { blockSize := 4 } = .ok (.ok plan') ∧
        plan.layout.maxInputSamples = 4 ∧ plan.layout.maxNodeRoutes = 2 ∧ plan.layout.eventCapacity = 256 ∧
        plan.monitor.compensationBound = 3 ∧ plan'.layout.maxInputSamples = 4 ∧ plan'.layout.maxNodeRoutes = 0 ∧
        plan'.layout.eventCapacity = 256 ∧ plan'.monitor.compensationBound = 0 ∧
        plan.monitor.compensation? ⟨0⟩ = some 3 ∧ plan'.monitor.compensation? ⟨0⟩ = some 0 := by decide +kernel
  obtain ⟨starts, starts', _, wait, wait', present, waits, waits', _, hears⟩ :=
    only_leading_heard (fun _ _ => metered_proper) metered_remove rfl metered_apart compiled compiled'
  cases present
  obtain rfl := Option.some.inj (waits.symm.trans late)
  obtain rfl := Option.some.inj (waits'.symm.trans early)
  obtain ⟨blocks, _, last, run, length, _⟩ :=
    starts ⟨by rw [samples]; decide, by rw [events, routes]; decide⟩ 48000 2 (by rw [bound]; decide)
  obtain ⟨blocks', _, last', run', length', _⟩ :=
    starts' ⟨by rw [samples']; decide, by rw [events', routes']; decide⟩ 48000 2 (by rw [bound']; decide)
  obtain ⟨heard, frames, late, early⟩ := hears blocks blocks' last last' run run' (length'.trans length.symm)
  exact ⟨plan, plan', last, last', blocks, blocks', heard, compiled, compiled', run, run', length, length',
    frames.trans (congrArg (· * 4) length), late, early⟩

/-- A node that does not lead to the sink can make the sink late. -/
theorem metered_late : metered.remove ⟨2⟩ = .ok (.gain ⟨1, 1⟩, unmetered) ∧
    ¬ Relation.ReflTransGen metered.Feeds ⟨2⟩ ⟨0⟩ ∧
    ∃ (plan plan' : Plan Builtin) (block block' : Block Builtin),
      compile metered { blockSize := 4 } = .ok (.ok plan) ∧ compile unmetered { blockSize := 4 } = .ok (.ok plan') ∧
      Run Eq plan [block] block.after ∧ Run Eq plan' [block'] block'.after ∧
      FromStart 48000 4 [block] block.rendered ∧ FromStart 48000 4 [block'] block'.rendered ∧
      sounded [block] = [#[0], #[0], #[0], #[1]] ∧ sounded [block'] = [#[1], #[0], #[0], #[0]] := by
  obtain ⟨plan, compiled, plan', compiled', ⟨calls, engine, after, context⟩, renders,
      ⟨calls', engine', after', context'⟩, renders', late, early⟩ :
      ∃ plan, compile metered { blockSize := 4 } = .ok (.ok plan) ∧
      ∃ plan', compile unmetered { blockSize := 4 } = .ok (.ok plan') ∧
      ∃ block, Engine.new.render plan (.start 48000 4) = .ok block ∧
      ∃ block', Engine.new.render plan' (.start 48000 4) = .ok block' ∧
        (SignalBuffer.audio block.2.1.output).frames = [#[0], #[0], #[0], #[1]] ∧
        (SignalBuffer.audio block'.2.1.output).frames = [#[1], #[0], #[0], #[0]] := by decide +kernel
  refine ⟨metered_remove, metered_apart, ?_⟩
  let block : Block Builtin := ⟨.new, plan, .start 48000 4, calls, engine, after, context⟩
  let block' : Block Builtin := ⟨.new, plan', .start 48000 4, calls', engine', after', context'⟩
  refine ⟨plan, plan', block, block', compiled, compiled', ?_, ?_, ?_, ?_, ?_, ?_⟩
  · exact @Run.render _ _ _ _ [] plan block .start rfl renders
  · exact @Run.render _ _ _ _ [] plan' block' .start rfl renders'
  · exact @FromStart.render _ _ _ [] block .start rfl
  · exact @FromStart.render _ _ _ [] block' .start rfl
  · rw [sounded, List.flatMap_singleton]
    exact late
  · rw [sounded, List.flatMap_singleton]
    exact early

end Patchbay
