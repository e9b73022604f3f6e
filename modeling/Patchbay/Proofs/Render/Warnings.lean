import Patchbay.Proofs.Plan.Misaligned
import Patchbay.Proofs.Render.LatencySums

/-! Control signals that stay early.

A control signal is never delayed, so it is early where an alignment asks for a
delay. The warning looks at two alignments only: the one for what the nodes declare and
the one for their latencies at compile time. The delay asked for is a difference of two
longest ways and may be greatest in between, so a signal may be early without being
warned of; which ones can be is a matter of who leads where.
-/

set_option autoImplicit false

namespace Patchbay

open Relation (TransGen ReflTransGen)

variable {ν : Type}

namespace Patch

def Controls [Node ν] (patch : Patch ν) (source dest : NodeId) : Prop :=
  ∃ id edge spec, patch.edge? id = some edge ∧ edge.source = source ∧ edge.dest = dest ∧
    patch.OutputAt source edge.sourcePort spec ∧ spec.type.kind = .control

/-- Some way into `dest` takes longer than every way through `source`. -/
def Early (patch : Patch ν) (latency : NodeId → Nat) (source dest : NodeId) : Prop :=
  ∃ late, patch.Accumulates latency dest late ∧
    ∀ early, patch.Accumulates latency source early → early + latency source < late

variable {patch : Patch ν} {latency : NodeId → Nat} {source dest : NodeId}

theorem Controls.feeds [Node ν] (controls : patch.Controls source dest) : patch.Feeds source dest := by
  obtain ⟨id, edge, _, found, from_, into, _⟩ := controls
  exact ⟨id, edge, found, from_, into⟩

theorem early_iff {early late : Nat} (first : patch.IsArrival latency source early)
    (second : patch.IsArrival latency dest late) :
    patch.Early latency source dest ↔ early + latency source < late := by
  constructor
  · rintro ⟨total, path, longer⟩
    exact (longer early first.1).trans_le (second.2 path)
  · intro less
    refine ⟨late, second.1, fun total path => ?_⟩
    have := first.2 path
    omega

theorem Accumulates.extend {total : Nat} (path : patch.Accumulates latency source total)
    (leads : ReflTransGen patch.Feeds source dest) :
    ∃ longer, total ≤ longer ∧ patch.Accumulates latency dest longer := by
  induction leads with
  | refl => exact ⟨total, le_rfl, path⟩
  | tail _ feeds ih =>
    obtain ⟨longer, bound, path⟩ := ih
    exact ⟨_, by omega, .step feeds path⟩

theorem accumulates_through {node : NodeId} (leads : TransGen patch.Feeds node dest) :
    ∃ total, latency node ≤ total ∧ patch.Accumulates latency dest total := by
  obtain ⟨next, feeds, rest⟩ := TransGen.head'_iff.mp leads
  obtain ⟨total, bound, path⟩ := (Accumulates.step feeds (.start node)).extend rest
  exact ⟨total, by omega, path⟩

/-- Where every node of some latency on the way leads through `source`, a way through
`source` takes as long. -/
theorem Accumulates.through {id : NodeId} {total : Nat} (path : patch.Accumulates latency id total)
    (leads : ReflTransGen patch.Feeds id dest)
    (gather : ∀ node, 0 < latency node → TransGen patch.Feeds node dest → ReflTransGen patch.Feeds node source) :
    ∃ early, patch.Accumulates latency source early ∧ total ≤ early + latency source := by
  induction path with
  | start => exact ⟨0, .start source, Nat.zero_le _⟩
  | @step before after total feeds path ih =>
    have leads' := TransGen.head' feeds leads
    by_cases positive : 0 < latency before
    · rcases (gather before positive leads').cases_head with rfl | ⟨next, feeds', rest⟩
      · exact ⟨total, path, le_rfl⟩
      · obtain ⟨longer, bound, path⟩ := (Accumulates.step feeds' path).extend rest
        exact ⟨longer, path, by omega⟩
    · obtain ⟨early, path, bound⟩ := ih leads'.to_reflTransGen
      exact ⟨early, path, by omega⟩

theorem Accumulates.eq_zero {id : NodeId} {total : Nat} (path : patch.Accumulates latency id total)
    (leads : ReflTransGen patch.Feeds id dest) (instant : ∀ node, ReflTransGen patch.Feeds node dest → latency node = 0) :
    total = 0 := by
  induction path with
  | start => rfl
  | step feeds _ ih => rw [ih (.head feeds leads), instant _ (.head feeds leads)]

/-- A node that leads to `dest` but not to `source` can make `source` early, and only such
a node can. -/
theorem exists_early_iff {most : NodeId → Nat} :
    (∃ latency, (∀ id, latency id ≤ most id) ∧ patch.Early latency source dest) ↔
      ∃ node, 0 < most node ∧ TransGen patch.Feeds node dest ∧ ¬ ReflTransGen patch.Feeds node source := by
  constructor
  · rintro ⟨latency, within, late, path, longer⟩
    by_contra! gather
    obtain ⟨early, path', bound⟩ := path.through .refl fun node positive leads =>
      gather node (positive.trans_le (within node)) leads
    have := longer early path'
    omega
  · rintro ⟨node, positive, leads, apart⟩
    -- That node alone takes as long as it may.
    let latency : NodeId → Nat := Function.update 0 node (most node)
    have instant : ∀ id, ReflTransGen patch.Feeds id source → latency id = 0 := by
      intro id onward
      apply Function.update_of_ne
      rintro rfl
      exact apart onward
    refine ⟨latency, ?_, ?_⟩
    · intro id
      by_cases same : id = node
      · subst same
        simp [latency]
      · simp [latency, same]
    · obtain ⟨total, bound, path⟩ : ∃ total, latency node ≤ total ∧ patch.Accumulates latency dest total :=
        accumulates_through leads
      refine ⟨total, path, fun early path' => ?_⟩
      rw [path'.eq_zero .refl instant, instant source .refl]
      have : latency node = most node := Function.update_self ..
      omega

end Patch

def Monitor.needed? (monitor : Monitor) (alignment : Alignment) (source dest : NodeId) : Option Nat := do
  let producer ← monitor.position? source
  let link ← monitor.graph.link producer (← monitor.position? dest)
  return (← alignment.values[producer]?) + (← alignment.links[link]?)

variable [Node ν]

/-- Whatever latencies the nodes come to have, within what they declare, each node with a
control signal that would have to be delayed is warned of. -/
def Monitor.WarnsAlways (monitor : Monitor) (patch : Patch ν) : Prop :=
  ∀ latency : NodeId → Nat, (∀ id, latency id ≤ patch.declared id) →
    ∀ alignment, monitor.graph.align (monitor.order.map latency).toArray = .ok alignment →
      ∀ source dest delay, patch.Controls source dest → monitor.needed? alignment source dest = some delay →
        0 < delay → source ∈ monitor.uncompensatedControl

variable {patch : Patch ν} {options : CompileOptions} {placed : List (Placed ν)} {survey : Survey} {plan : Plan ν}

namespace Surveyed

variable (surveyed : Surveyed patch placed survey)
include surveyed

theorem controls_iff {producer consumer : Nat} {origin place : Placed ν} (source : placed[producer]? = some origin)
    (item : placed[consumer]? = some place) :
    (survey.wiresBetween producer consumer).any (·.type.kind = .control) = true ↔
      patch.Controls origin.id place.id := by
  rw [List.any_eq_true]
  constructor
  · rintro ⟨wire, among, control⟩
    obtain ⟨id, edge, spec, found, from_, into, atPort, type⟩ :=
      (surveyed.exists_wireBetween_iff source item).mp ⟨wire, among, rfl⟩
    exact ⟨id, edge, spec, found, from_, into, atPort, type ▸ of_decide_eq_true control⟩
  · rintro ⟨id, edge, spec, found, from_, into, atPort, control⟩
    obtain ⟨wire, among, type⟩ :=
      (surveyed.exists_wireBetween_iff source item).mpr ⟨id, edge, spec, found, from_, into, atPort, rfl⟩
    exact ⟨wire, among, decide_eq_true (type ▸ control)⟩

variable {latency : Nat → Nat} {latencyOf : NodeId → Nat} {alignment : Alignment}
  (aligned : survey.graph.Aligned latency alignment)
  (agree : ∀ {position : Nat} {place}, placed[position]? = some place → latency position = latencyOf place.id)
include aligned agree

/-- A delay is asked for exactly where a signal is early. -/
theorem delay_pos_iff {producer consumer link wait rest : Nat} {origin place : Placed ν}
    (source : placed[producer]? = some origin) (item : placed[consumer]? = some place)
    (atLink : survey.graph.link producer consumer = some link) (waits : alignment.values[producer]? = some wait)
    (left : alignment.links[link]? = some rest) :
    0 < wait + rest ↔ patch.Early latencyOf origin.id place.id := by
  have inside : ∀ {position : Nat} {place : Placed ν}, placed[position]? = some place → position < survey.graph.size := by
    intro position place item
    rw [surveyed.size]
    exact (List.getElem?_eq_some_iff.mp item).1
  rw [Patch.early_iff ((surveyed.isArrival_iff agree source).mp (aligned.arrival (inside source)))
    ((surveyed.isArrival_iff agree item).mp (aligned.arrival (inside item))), ← agree source]
  obtain ⟨_, _, waits', left', balance⟩ := aligned.balance atLink
  rw [waits] at waits'
  rw [left] at left'
  cases waits'
  cases left'
  omega

theorem needed_pos_iff {producer consumer : Nat} {origin place : Placed ν} (source : placed[producer]? = some origin)
    (item : placed[consumer]? = some place) (member : consumer ∈ survey.graph.consumersOf producer) :
    0 < survey.needed alignment producer consumer ↔ patch.Early latencyOf origin.id place.id := by
  obtain ⟨link, atLink⟩ := surveyed.inOrder.exists_link member
  obtain ⟨wait, rest, waits, left, _⟩ := aligned.balance atLink
  rw [← surveyed.delay_pos_iff aligned agree source item atLink waits left]
  simp [Survey.needed, atLink, Array.getD_eq_getD_getElem?, waits, left]

end Surveyed

/-- A node is warned of exactly if one of its control signals is early for what the nodes
declare or at first. -/
theorem Surveyed.mem_uncompensated (surveyed : Surveyed patch placed survey) {initial : Alignment}
    (aligned : survey.graph.align survey.intrinsic = .ok initial) (id : NodeId) :
    id ∈ (survey.uncompensatedControl initial).filterMap ((placed.map (·.id))[·]?) ↔
      ∃ dest, patch.Controls id dest ∧ (patch.Early patch.declared id dest ∨ patch.Early patch.latency id dest) := by
  have asked : ∀ {producer consumer : Nat} {origin place}, placed[producer]? = some origin →
      placed[consumer]? = some place → consumer ∈ survey.graph.consumersOf producer →
        (0 < max (survey.needed survey.worst producer consumer) (survey.needed initial producer consumer) ↔
          patch.Early patch.declared origin.id place.id ∨ patch.Early patch.latency origin.id place.id) := by
    intro producer consumer origin place source item member
    rw [lt_max_iff, surveyed.needed_pos_iff surveyed.worst (Mirrors.declared_agrees surveyed.placement) source item member,
      surveyed.needed_pos_iff (LatencyGraph.align_aligned surveyed.inOrder aligned) surveyed.latency_agrees source item
        member]
  simp only [Survey.uncompensatedControl, List.mem_filterMap, List.mem_filter, List.any_eq_true, Bool.and_eq_true,
    decide_eq_true_eq, List.getElem?_map, Option.map_eq_some_iff]
  constructor
  · rintro ⟨producer, ⟨_, consumer, member, control, needed⟩, origin, source, rfl⟩
    obtain ⟨place, _, item, again, _⟩ := surveyed.mem_consumersOf.mp member
    refine ⟨place.id, (surveyed.controls_iff source item).mp ?_, (asked source item member).mp needed⟩
    simpa using control
  · rintro ⟨dest, controls, early⟩
    have ⟨edgeId, edge, _, found, from_, into, ⟨node, present, _⟩, _⟩ := controls
    obtain ⟨producer, source⟩ := surveyed.placement.exists_position present
    obtain ⟨consumer, member, place, item, rfl⟩ := surveyed.exists_consumer source ⟨edgeId, edge, found, from_, into⟩
    refine ⟨producer, ⟨?_, consumer, member, ?_, (asked source item member).mpr early⟩, _, source, rfl⟩
    · exact List.mem_range.mpr (surveyed.inOrder.lt_size_of_mem_consumersOf member).1
    · simpa using (surveyed.controls_iff source item).mpr controls

theorem compile_warned (answer : compile patch options = .ok (.ok plan)) :
    ∃ placed survey initial, CompiledFrom patch options placed survey plan ∧
      survey.graph.align survey.intrinsic = .ok initial ∧
      plan.monitor.uncompensatedControl = (survey.uncompensatedControl initial).filterMap ((placed.map (·.id))[·]?) := by
  obtain ⟨order, survey, checked, made, compiled⟩ := compile_steps answer
  simp only [compile, checked, made, ok_bind] at answer
  split at answer
  · cases answer
  · split at answer
    · cases answer
    · simp only [assemble, bind_eq_ok, pure_eq_ok, Except.ok.injEq] at answer
      obtain ⟨_, ⟨initial, aligned, _, _, _, _, rfl⟩, rfl⟩ := answer
      exact ⟨_, survey, initial, compiled, aligned, rfl⟩

section

variable (compiled : CompiledFrom patch options placed survey plan) {latency : NodeId → Nat}
  (within : ∀ id, latency id ≤ patch.declared id)
include compiled

theorem CompiledFrom.latency_at {position : Nat} {place : Placed ν} (item : placed[position]? = some place) :
    (plan.monitor.order.map latency).toArray.getD position 0 = latency place.id := by
  simp [compiled.serves.order, Array.getD_eq_getD_getElem?, item]

include within

theorem CompiledFrom.aligns :
    ∃ alignment, plan.monitor.graph.align (plan.monitor.order.map latency).toArray = .ok alignment := by
  have surveyed := compiled.surveyed
  rw [compiled.serves.graph]
  apply (LatencyGraph.align_answers_iff surveyed.inOrder (by simp [compiled.serves.order, surveyed.size])).mpr
  apply (surveyed.addable_iff compiled.latency_at).mpr
  exact surveyed.addable.mono within

omit within in
theorem CompiledFrom.needed?_pos_iff {alignment : Alignment} {source dest : NodeId}
    (aligned : plan.monitor.graph.align (plan.monitor.order.map latency).toArray = .ok alignment)
    (feeds : patch.Feeds source dest) : ∃ delay, plan.monitor.needed? alignment source dest = some delay ∧
      (0 < delay ↔ patch.Early latency source dest) := by
  have surveyed := compiled.surveyed
  have serves := compiled.serves
  have ⟨id, edge, found, from_, into⟩ := feeds
  obtain ⟨_, _, ⟨node, present, _⟩, _⟩ := surveyed.fits id edge found
  obtain ⟨producer, source⟩ := surveyed.placement.exists_position present
  subst from_
  obtain ⟨consumer, member, place, item, rfl⟩ := surveyed.exists_consumer source feeds
  obtain ⟨link, atLink⟩ := surveyed.inOrder.exists_link member
  rw [serves.graph] at aligned
  have solved := LatencyGraph.align_aligned surveyed.inOrder aligned
  obtain ⟨wait, rest, waits, left, _⟩ := solved.balance atLink
  refine ⟨wait + rest, ?_, surveyed.delay_pos_iff solved compiled.latency_at source item atLink waits left⟩
  simp [Monitor.needed?, serves.position?_eq source, serves.position?_eq item, serves.graph, atLink, waits, left]

end

/-- The warning of a compiled plan names the nodes with a control signal that is early for
what the nodes declare or at first. With other latencies other control signals may be
early, namely those that lack the latency of some node that does not lead to their
source; so the warning holds for all latencies exactly if it names the sources of these. -/
theorem warns_exactly (answer : compile patch options = .ok (.ok plan)) :
    (∀ source, source ∈ plan.monitor.uncompensatedControl ↔ ∃ dest, patch.Controls source dest ∧
      (patch.Early patch.declared source dest ∨ patch.Early patch.latency source dest)) ∧
    (∀ latency : NodeId → Nat, (∀ id, latency id ≤ patch.declared id) →
      ∃ alignment, plan.monitor.graph.align (plan.monitor.order.map latency).toArray = .ok alignment ∧
        ∀ source dest, patch.Feeds source dest → ∃ delay, plan.monitor.needed? alignment source dest = some delay ∧
          (0 < delay ↔ patch.Early latency source dest)) ∧
    (plan.monitor.WarnsAlways patch ↔ ∀ source dest node, patch.Controls source dest → 0 < patch.declared node →
      TransGen patch.Feeds node dest → ¬ ReflTransGen patch.Feeds node source →
        source ∈ plan.monitor.uncompensatedControl) := by
  obtain ⟨placed, survey, initial, compiled, aligned, warned⟩ := compile_warned answer
  refine ⟨?_, ?_, ?_⟩
  · intro source
    rw [warned]
    exact compiled.surveyed.mem_uncompensated aligned source
  · intro latency within
    obtain ⟨alignment, aligned⟩ := compiled.aligns within
    exact ⟨alignment, aligned, fun source dest feeds => compiled.needed?_pos_iff aligned feeds⟩
  · constructor
    · intro always source dest node controls positive leads apart
      obtain ⟨latency, within, early⟩ := Patch.exists_early_iff.mpr ⟨node, positive, leads, apart⟩
      obtain ⟨alignment, aligned⟩ := compiled.aligns within
      obtain ⟨delay, needed, asked⟩ := compiled.needed?_pos_iff aligned controls.feeds
      exact always latency within alignment aligned source dest delay controls needed (asked.mpr early)
    · intro named latency within alignment aligned source dest delay controls needed positive
      obtain ⟨_, again, asked⟩ := compiled.needed?_pos_iff aligned controls.feeds
      rw [needed] at again
      cases again
      obtain ⟨node, some, leads, apart⟩ := Patch.exists_early_iff.mp ⟨latency, within, asked.mp positive⟩
      exact named source dest node controls some leads apart

/-! ## A small patch -/

/-- A sound and a control signal that set out together and meet. The sound may come to be
ten samples late, and the control signal `most`. -/
def tuner (most : Nat) : Patch Stub where
  nodes := #[some ⟨[], [.audio "out" 1], 10, 0⟩, some ⟨[], [.control "out"], most, 0⟩,
    some ⟨[.audio "in" 1, .control "tune"], [.audio "out" 1], 0, 0⟩]
  edges := #[some ⟨⟨0⟩, 0, ⟨2⟩, 0, 1⟩, some ⟨⟨1⟩, 0, ⟨2⟩, 1, 1⟩]
  sink := none

theorem tuner_controls {most : Nat} {source dest : NodeId} (controls : (tuner most).Controls source dest) :
    source = ⟨1⟩ := by
  obtain ⟨⟨_ | _ | _⟩, edge, spec, found, rfl, rfl, ⟨node, present, atPort⟩, control⟩ := controls
  · cases found
    cases present
    cases atPort
    cases control
  · cases found
    rfl
  · cases found

/-- With a control signal that is never late itself, the sound may only lag behind it. -/
theorem tuner_warns : ∃ plan, compile (tuner 0) { blockSize := 4 } = .ok (.ok plan) ∧
    plan.monitor.uncompensatedControl = [⟨1⟩] ∧ plan.monitor.WarnsAlways (tuner 0) := by
  obtain ⟨plan, compiled, warned⟩ : ∃ plan, compile (tuner 0) { blockSize := 4 } = .ok (.ok plan) ∧
      plan.monitor.uncompensatedControl = [⟨1⟩] := by decide +kernel
  refine ⟨plan, compiled, warned, (warns_exactly compiled).2.2.mpr ?_⟩
  intro source dest node controls _ _ _
  rw [tuner_controls controls, warned]
  exact List.mem_singleton_self _

/-- Where both may be equally late, they meet in time if both are, and at first, so nothing is
warned of. But the sound may be late alone. -/
theorem tuner_unwarned : ∃ plan, compile (tuner 10) { blockSize := 4 } = .ok (.ok plan) ∧
    plan.monitor.uncompensatedControl = [] ∧ ¬ plan.monitor.WarnsAlways (tuner 10) := by
  obtain ⟨plan, compiled, none, alignment, aligned, needed⟩ :
      ∃ plan, compile (tuner 10) { blockSize := 4 } = .ok (.ok plan) ∧ plan.monitor.uncompensatedControl = [] ∧
        ∃ alignment, plan.monitor.graph.align
          (plan.monitor.order.map (Function.update 0 ⟨0⟩ 10)).toArray = .ok alignment ∧
            plan.monitor.needed? alignment ⟨1⟩ ⟨2⟩ = some 10 := by decide +kernel
  refine ⟨plan, compiled, none, fun always => ?_⟩
  have within : ∀ id, Function.update (0 : NodeId → Nat) ⟨0⟩ 10 id ≤ (tuner 10).declared id := by
    intro id
    by_cases same : id = ⟨0⟩
    · subst same
      decide
    · rw [Function.update_of_ne same]
      exact Nat.zero_le _
  have controls : (tuner 10).Controls ⟨1⟩ ⟨2⟩ := ⟨⟨1⟩, _, .control "out", rfl, rfl, rfl, ⟨_, rfl, rfl⟩, rfl⟩
  have warned := always _ within alignment aligned ⟨1⟩ ⟨2⟩ 10 controls needed (by decide)
  rw [none] at warned
  cases warned

end Patchbay
