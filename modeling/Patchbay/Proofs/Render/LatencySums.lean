import Patchbay.Proofs.Latency.Solution
import Patchbay.Proofs.Render.Monitoring
import Patchbay.Proofs.Render.Reads
import Patchbay.Proofs.Render.Unfailing

/-! Sums of latencies.

The latencies along a path are added up before any limit is looked at, when a patch is
compiled and again whenever delays are refreshed from what the nodes report. Both answer
as long as every such sum is a count, and not beyond.
-/

set_option autoImplicit false

namespace Patchbay

variable {ν : Type}

namespace Patch

def Addable (patch : Patch ν) (latency : NodeId → Nat) : Prop :=
  ∀ id total, patch.Accumulates latency id total → total < Count.limit

theorem Accumulates.mono {patch : Patch ν} {latency other : NodeId → Nat} (below : ∀ id, latency id ≤ other id)
    {id : NodeId} {total : Nat} (path : patch.Accumulates latency id total) :
    ∃ greater, total ≤ greater ∧ patch.Accumulates other id greater := by
  induction path with
  | start id => exact ⟨0, le_rfl, .start id⟩
  | @step source _ _ feeds _ ih =>
    obtain ⟨greater, bound, path⟩ := ih
    exact ⟨greater + other source, Nat.add_le_add bound (below source), .step feeds path⟩

theorem Addable.mono {patch : Patch ν} {latency other : NodeId → Nat} (addable : patch.Addable other)
    (below : ∀ id, latency id ≤ other id) : patch.Addable latency := by
  intro id total path
  obtain ⟨greater, bound, above⟩ := path.mono below
  exact bound.trans_lt (addable id greater above)

/-- Storage can be addressed, with lines of a length that the options admit. -/
structure Storable [Node ν] (patch : Patch ν) (options : CompileOptions) : Prop where
  lines : ∀ type delay, patch.Line type delay → delay ≤ options.maxCompensation → type.Storable options delay
  inputs : ∀ id index port, patch.InputAt id index port → ∀ channels, port.type = .audio channels →
    options.blockSize * max channels 1 < Count.limit

end Patch

variable [Node ν] {patch : Patch ν} {options : CompileOptions} {placed : List (Placed ν)} {survey : Survey}

/-! ## Compiling -/

theorem Surveyed.addable_iff (surveyed : Surveyed patch placed survey) {latency : Nat → Nat} {latencyOf : NodeId → Nat}
    (agree : ∀ {position : Nat} {place}, placed[position]? = some place → latency position = latencyOf place.id) :
    survey.graph.Addable latency ↔ patch.Addable latencyOf := by
  have none : 0 < Count.limit := by decide
  constructor
  · intro addable id total path
    cases path with
    | start => exact none
    | step feeds before =>
      -- A path that goes anywhere ends at a node of the patch, which has a position.
      have ⟨edgeId, edge, found, _, into⟩ := feeds
      obtain ⟨_, _, _, ⟨node, present, _⟩, _⟩ := surveyed.fits edgeId edge found
      rw [into] at present
      obtain ⟨position, item⟩ := surveyed.placement.exists_position present
      exact addable position _ ((surveyed.accumulates_iff agree item).mpr (.step feeds before))
  · intro addable position total path
    cases path with
    | start => exact none
    | step member before =>
      obtain ⟨place, _, item, _⟩ := surveyed.producers.mp member
      exact addable _ _ ((surveyed.accumulates_iff agree item).mp (.step member before))

theorem Surveyed.addable (surveyed : Surveyed patch placed survey) : patch.Addable patch.declared := by
  apply (surveyed.addable_iff (Mirrors.declared_agrees surveyed.placement)).mp
  exact (LatencyGraph.align_answers_iff surveyed.inOrder (by simp [declaredAt, surveyed.size])).mp ⟨_, surveyed.surveys⟩

theorem compile_answers_iff (storable : patch.Storable options) :
    (∃ answer, compile patch options = .ok answer) ↔ (patch.Checks options → patch.Addable patch.declared) := by
  constructor
  · rintro ⟨answer, compiled⟩ checks
    have ends := compile_ends patch options
    rw [compiled] at ends
    cases ends with
    | unfit _ fails => exact absurd checks fails
    | sinkless _ surveyed _ _ | tooLong _ surveyed _ _ => exact surveyed.addable
    | planned _ _ origin => exact origin.surveyed.addable
  · intro addable
    by_cases checks : patch.Checks options
    · exact compile_answers ⟨fun _ => addable checks, storable.lines, storable.inputs⟩
    · have ends := compile_ends patch options
      generalize compile patch options = result at ends ⊢
      cases ends with
      | unfit => exact ⟨_, rfl⟩
      | unsurveyed passes | sinkless passes | tooLong passes | unassembled passes => exact absurd passes checks
      | planned _ _ origin => exact absurd origin.checks checks

theorem compile_too_large (checks : patch.Checks options) (hasSink : patch.HasSink)
    (addable : patch.Addable patch.declared) {required : Nat}
    (greatest : IsGreatest {delay | patch.Demands delay} required) (exceeds : options.maxCompensation < required) :
    compile patch options = .ok (.error (.compensationTooLarge required options.maxCompensation)) := by
  -- As some delay is demanded, the bound of a survey is the longest of them.
  have bound : ∀ {placed : List (Placed ν)} {survey : Survey}, Surveyed patch placed survey → survey.bound = required := by
    intro placed survey surveyed
    have reached := surveyed.demands_le_bound greatest.1
    exact le_antisymm (greatest.2 (surveyed.demands_bound (by omega))) reached
  have ends := compile_ends patch options
  generalize compile patch options = result at ends ⊢
  cases ends with
  | unfit _ fails => exact absurd checks fails
  | unsurveyed _ ordered failed =>
    obtain ⟨survey, made⟩ := Survey.ofPlaced_ok (Placement.ofOrder ordered) checks.fits addable
    rw [made] at failed
    cases failed
  | sinkless _ _ _ noSink => exact absurd hasSink noSink
  | tooLong _ surveyed => rw [bound surveyed]
  | unassembled _ surveyed _ within =>
    rw [bound surveyed] at within
    omega
  | planned _ _ origin =>
    have within := origin.within
    rw [bound origin.surveyed] at within
    omega

/-! ## In use -/

namespace Monitor

theorem refresh_answers_iff {monitor : Monitor} : (∃ outcome, monitor.refresh = .ok outcome) ↔
    ∃ alignment, monitor.graph.align monitor.latencies.intrinsic = .ok alignment := by
  simp [refresh, Latencies.refresh]

theorem refreshIfDirty_answers_iff {monitor : Monitor} : (∃ outcome, monitor.refreshIfDirty = .ok outcome) ↔
    (monitor.latencies.dirty = true →
      ∃ alignment, monitor.graph.align monitor.latencies.intrinsic = .ok alignment) := by
  unfold refreshIfDirty
  split
  · rename_i dirty
    simp [dirty, refresh, Latencies.refresh]
  · rename_i clean
    simp [clean]

end Monitor

section

variable {keeps : ν → Prop} {plan after last : Plan ν} {blocks : List (Block ν)}

theorem Plan.Managed.frame (managed : plan.Managed keeps after) : after.monitor.frame = plan.monitor.frame := by
  cases managed with
  | report answer => exact Monitor.frame_report answer
  | refresh answer =>
    obtain ⟨_, _, rfl⟩ := Monitor.refresh_spec answer
    rfl
  | refreshIfDirty answer =>
    rcases Monitor.refreshIfDirty_cases answer with ⟨_, _, _, rfl⟩ | ⟨_, rfl⟩
    · rfl
    · rfl
  | change => rfl
  | reset => rfl

theorem Plan.manages_frame (manages : Relation.ReflTransGen (Plan.Managed keeps) plan after) :
    after.monitor.frame = plan.monitor.frame := by
  induction manages with
  | refl => rfl
  | tail _ managed ih => exact managed.frame.trans ih

theorem Run.frame (run : Run (Relation.ReflTransGen (Plan.Managed keeps)) plan blocks last) :
    last.monitor.frame = plan.monitor.frame := by
  induction run with
  | start => rfl
  | render _ manages renders ih => exact (Engine.render_frame renders).trans ((Plan.manages_frame manages).trans ih)

end

def Monitor.reported (monitor : Monitor) (id : NodeId) : Nat := (monitor.intrinsicLatency? id).getD 0

/-- What was reported to a plan can be aligned exactly if it adds up. -/
theorem CompiledFrom.aligns_iff {plan now : Plan ν} (compiled : CompiledFrom patch options placed survey plan)
    (kept : now.monitor.frame = plan.monitor.frame) :
    (∃ alignment, now.monitor.graph.align now.monitor.latencies.intrinsic = .ok alignment) ↔
      patch.Addable now.monitor.reported := by
  have surveyed := compiled.surveyed
  have serves := compiled.serves
  obtain ⟨_, _, _, _, _, assembled⟩ := compiled.assembled
  simp only [Monitor.frame, Prod.mk.injEq] at kept
  obtain ⟨order, graph, size⟩ := kept
  have sizes : now.monitor.latencies.intrinsic.size = survey.graph.size := by
    rw [size, assembled.intrinsic, surveyed.intrinsic, List.size_toArray, List.length_map, surveyed.size]
  rw [graph, serves.graph, LatencyGraph.align_answers_iff surveyed.inOrder sizes.ge]
  apply surveyed.addable_iff
  intro position place item
  have atId : now.monitor.position? place.id = some position := by
    rw [Monitor.position?, order]
    exact serves.position?_eq item
  simp [Monitor.reported, Monitor.intrinsicLatency?, atId, Array.getD_eq_getD_getElem?]

/-- A compile, and any refresh of its plan, answers as long as the latencies along every
path add up to a count: the declared ones, and those that the nodes have reported
whatever they declared. Nothing but a sum that is no count keeps either from answering, and
a delay beyond the limit is reported where it is one. -/
theorem latency_sums (storable : patch.Storable options) :
    ((∃ answer, compile patch options = .ok answer) ↔ (patch.Checks options → patch.Addable patch.declared)) ∧
    (patch.Checks options → patch.HasSink → patch.Addable patch.declared → ∀ required,
      IsGreatest {delay | patch.Demands delay} required → options.maxCompensation < required →
        compile patch options = .ok (.error (.compensationTooLarge required options.maxCompensation))) ∧
    ∀ plan blocks last now, compile patch options = .ok (.ok plan) →
      Run (Relation.ReflTransGen (Plan.Managed fun _ => True)) plan blocks last →
      Relation.ReflTransGen (Plan.Managed fun _ => True) last now →
        ((∃ outcome, now.monitor.refresh = .ok outcome) ↔ patch.Addable now.monitor.reported) ∧
        ((∃ outcome, now.monitor.refreshIfDirty = .ok outcome) ↔
          (now.monitor.latencies.dirty = true → patch.Addable now.monitor.reported)) := by
  refine ⟨compile_answers_iff storable, ?_, ?_⟩
  · intro checks hasSink addable required greatest exceeds
    exact compile_too_large checks hasSink addable greatest exceeds
  · intro plan blocks last now answer run manages
    obtain ⟨placed, survey, compiled⟩ := compile_plan answer
    have aligns := compiled.aligns_iff ((Plan.manages_frame manages).trans run.frame)
    exact ⟨Monitor.refresh_answers_iff.trans aligns,
      Monitor.refreshIfDirty_answers_iff.trans (imp_congr_right fun _ => aligns)⟩

theorem constantIntoGain_sums : ∃ plan now, compile constantIntoGain { blockSize := 4 } = .ok (.ok plan) ∧
    Relation.ReflTransGen (Plan.Managed fun _ => True) plan now ∧ now.monitor.reported ⟨0⟩ = 2 ^ 64 - 1 ∧
    ∃ outcome, now.monitor.refresh = .ok outcome := by
  obtain ⟨plan, compiled, ⟨changed, latencies⟩, reports, known⟩ :
      ∃ plan, compile constantIntoGain { blockSize := 4 } = .ok (.ok plan) ∧
        ∃ outcome, plan.monitor.latencies.report 0 (2 ^ 64 - 1) = .ok outcome ∧
          ({ plan.monitor with latencies := outcome.2 } : Monitor).reported ⟨0⟩ = 2 ^ 64 - 1 := by decide +kernel
  have manages : Relation.ReflTransGen (Plan.Managed fun _ => True) plan _ := .single (.report reports)
  have storable : constantIntoGain.Storable { blockSize := 4 } :=
    ⟨constantIntoGain_representable.lines, constantIntoGain_representable.inputs⟩
  obtain ⟨_, _, inUse⟩ := latency_sums storable
  refine ⟨plan, _, compiled, manages, known, (inUse plan [] plan _ compiled .start manages).1.mpr ?_⟩
  -- The one edge leaves the constant, so no path has two nodes to add up.
  have only : ∀ {source dest}, constantIntoGain.Feeds source dest → source = ⟨0⟩ ∧ dest = ⟨1⟩ := by
    rintro source dest ⟨⟨_ | _⟩, edge, found, rfl, rfl⟩
    · cases found
      exact ⟨rfl, rfl⟩
    · cases found
  intro id total path
  cases path with
  | start => decide
  | step feeds before =>
    obtain ⟨rfl, _⟩ := only feeds
    cases before with
    | start =>
      rw [known]
      decide
    | step again => cases (only again).2

/-! ## A small patch -/

structure Stub where
  inputs : List PortSpec
  outputs : List PortSpec
  maxLatency : Nat := 0
  latency : Nat := 0
  deriving DecidableEq

instance : Node Stub where
  name _ := "stub"
  inputs := Stub.inputs
  outputs := Stub.outputs
  latency := Stub.latency
  maxLatency := Stub.maxLatency
  process _ stub ports := .ok (.done, stub, ports)

def relay (first : Nat) : Patch Stub where
  nodes := #[some ⟨[], [.audio "out" 1], first, first⟩, some ⟨[.audio "in" 1], [.audio "out" 1], 1, 1⟩,
    some ⟨[.audio "in" 1], [.audio "out" 1], 0, 0⟩]
  edges := #[some ⟨⟨0⟩, 0, ⟨1⟩, 0, 1⟩, some ⟨⟨1⟩, 0, ⟨2⟩, 0, 1⟩]
  sink := none

theorem relay_ports {first : Nat} {id : NodeId} {node : Stub} (present : (relay first).node? id = some node) :
    ∀ port ∈ node.inputs ++ node.outputs, port.type = .audio 1 := by
  obtain ⟨_ | _ | _ | _⟩ := id <;> cases present <;> simp [PortSpec.audio]

theorem relay_storable (first : Nat) : (relay first).Storable { blockSize := 4 } where
  lines := by
    have mono : ∀ delay ≤ 1048576, PortType.Storable (.audio 1) { blockSize := 4 } delay := by
      intro delay short
      refine ⟨by decide, ?_⟩
      simp only [Count.storageLimit, max_self]
      omega
    have output : ∀ {id index port}, (relay first).OutputAt id index port → port.type = .audio 1 := by
      rintro id index port ⟨node, present, atIndex⟩
      exact relay_ports present port (List.mem_append_right _ (List.mem_of_getElem? atIndex))
    intro type delay line short
    cases line with
    | idle at_ => exact output at_ ▸ mono 0 (by decide)
    | waiting at_ => exact output at_ ▸ mono delay short
    | branch branches =>
      obtain ⟨_, ⟨port, at_, rfl⟩, _⟩ := branches
      exact output at_ ▸ mono delay short
  inputs := by
    rintro id index port ⟨node, present, atIndex⟩ channels type
    rw [relay_ports present port (List.mem_append_left _ (List.mem_of_getElem? atIndex))] at type
    cases type
    decide

/-- With a first node as late as can be counted, the second is too much, when the patch is
compiled or, if the first reports it only later, when its plan is refreshed. -/
theorem relay_overflows : (relay (2 ^ 64 - 1)).Storable { blockSize := 4 } ∧
    (∀ id, (relay (2 ^ 64 - 1)).declared id < 2 ^ 64) ∧
    compile (relay (2 ^ 64 - 1)) { blockSize := 4 } = .error .overflow ∧
    ∃ plan, compile (relay 0) { blockSize := 4 } = .ok (.ok plan) ∧
      ∃ outcome, plan.monitor.latencies.report 0 (2 ^ 64 - 1) = .ok outcome ∧
        ({ plan.monitor with latencies := outcome.2 } : Monitor).refresh = .error .overflow := by
  refine ⟨relay_storable _, ?_, by decide +kernel, by decide +kernel⟩
  rintro ⟨_ | _ | _ | _⟩
  · decide
  · decide
  · decide
  · exact (by decide : 0 < 2 ^ 64)

end Patchbay
