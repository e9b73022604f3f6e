import Patchbay.Proofs.Render.Arrival
import Patchbay.Proofs.Render.Lockstep

/-! A reset plan is a new plan.

Whatever a plan has been through without a failure and without news of a latency, a
reset leaves it as it was compiled, its counters aside. Since rendering does not look
at counters, all that is rendered from there on is what a new plan would render.
-/

set_option autoImplicit false

namespace Patchbay

variable {ν : Type}

/-! ## Blocks in a row -/

def Engine.play [Node ν] (engine : Engine) (plan : Plan ν) (context : Context) :
    (count : Nat) → Checked (List (Block ν))
  | 0 => .ok []
  | count + 1 => do
      let (calls, rendered, after, moved) ← engine.render plan context
      let later ← rendered.play after moved count
      return ⟨engine, plan, context, calls, rendered, after, moved⟩ :: later

def Block.lost (block : Block ν) : Nat := block.after.monitor.overflows - block.before.monitor.overflows

/-- The other block has the same calls with the same inputs, the same signal and the
same losses. -/
structure Block.Replays [Node ν] (block other : Block ν) : Prop where
  calls : List.Forall₂ Call.Mirrors block.calls other.calls
  output : other.rendered.output = block.rendered.output
  lost : other.lost = block.lost

variable [Node ν] {patch : Patch ν} {options : CompileOptions} {placed : List (Placed ν)} {survey : Survey}
  {fresh plan after last now : Plan ν} {blocks : List (Block ν)} {keeps : ν → Prop} {format : Format}

/-- Plans that differ in their counters are played in step, whatever the renderers. -/
theorem Engine.play_inStep (asks : Node.Asks ν) (abides : Node.Abides keeps) (playable : plan.Playable format keeps)
    {engine other : Engine} (sound : engine.Sound) (also : other.Sound) (tally : Tally) (context : Context)
    (count : Nat) : InStep (List.Forall₂ Block.Replays) (engine.play plan context count)
      (other.play (plan.ahead tally) context count) := by
  induction count generalizing plan engine other context with
  | zero => exact .answer .nil
  | succ count ih =>
    unfold play
    refine (render_inStep asks abides playable sound also tally context).bind ?_
    rintro ⟨calls, rendered, after, moved⟩ ⟨calls', rendered', after', moved'⟩ renders renders' ⟨mirrors, output, rest⟩
    cases rest
    obtain ⟨still, _, sound⟩ := render_playable abides playable sound renders
    obtain ⟨_, _, also⟩ := render_playable abides (playable.ahead tally) also renders'
    refine (ih still sound also moved).bind ?_
    rintro later later' - - replays
    refine .answer (.cons ⟨mirrors, output, ?_⟩ replays)
    show (tally.overflows + after.monitor.overflows) - (tally.overflows + plan.monitor.overflows) = _
    rw [Nat.add_sub_add_left]
    rfl

/-! ## Wear -/

inductive Plan.Refreshed (plan : Plan ν) : Plan ν → Prop where
  | refresh {report : RefreshReport} {monitor : Monitor} : plan.monitor.refresh = .ok (report, monitor) →
      Refreshed plan { plan with monitor }
  | refreshIfDirty {report : Option RefreshReport} {monitor : Monitor} :
      plan.monitor.refreshIfDirty = .ok (report, monitor) → Refreshed plan { plan with monitor }

theorem Plan.Refreshed.touched (refreshed : plan.Refreshed after) : plan.Touched after := by
  cases refreshed with
  | refresh answer =>
    obtain ⟨_, _, rfl⟩ := Monitor.refresh_spec answer
    exact .adjusted ⟨rfl, rfl, rfl, rfl, rfl, rfl⟩
  | refreshIfDirty answer =>
    rcases Monitor.refreshIfDirty_cases answer with ⟨_, _, _, rfl⟩ | ⟨_, rfl⟩
    · exact .adjusted ⟨rfl, rfl, rfl, rfl, rfl, rfl⟩
    · exact .adjusted (.refl plan)

theorem Plan.refreshes_touches (refreshes : Relation.ReflTransGen Plan.Refreshed plan after) :
    Relation.ReflTransGen Plan.Touched plan after :=
  Relation.ReflTransGen.mono (fun _ _ refreshed => Refreshed.touched refreshed) _ _ refreshes

omit [Node ν] in
theorem Plan.refreshes_nodes (refreshes : Relation.ReflTransGen Plan.Refreshed plan after) : after.nodes = plan.nodes := by
  induction refreshes with
  | refl => rfl
  | tail _ refreshed ih => cases refreshed <;> exact ih

def Monitor.Counted (before after : Monitor) : Prop :=
  after = { before with clamps := after.clamps, overflows := after.overflows, blocks := after.blocks }

theorem Monitor.Counted.latencies {before after : Monitor} (counted : before.Counted after) :
    after.latencies = before.latencies := by
  rw [counted]

theorem Monitor.Counted.misaligned {before after : Monitor} (counted : before.Counted after) :
    after.misaligned = before.misaligned := by
  rw [counted]

theorem Monitor.Counted.trans {before middle after : Monitor} (first : before.Counted middle)
    (second : middle.Counted after) : before.Counted after := by
  unfold Counted at first second ⊢
  rw [first] at second
  exact second

theorem Monitor.Follows.counted {calls : List (Call ν)} {lost : Nat} {before after : Monitor}
    (follows : Monitor.Follows calls lost before after) (alive : ∀ call ∈ calls, call.fails = false)
    (told : ∀ call ∈ calls, call.fails = false →
      before.latencies.intrinsic[call.position]? = some (Node.latency call.next)) : before.Counted after := by
  have failed : after.failed = before.failed := by
    refine Array.ext follows.size fun position here there => ?_
    have marks := follows.failed position
    rw [List.any_eq_false.mpr fun call member => by simp [alive call member], Bool.or_false] at marks
    simpa [Monitor.isFailedAt, here, there] using marks
  have latencies := follows.steady told
  obtain ⟨order, names, graph, bound, uncompensated, misaligned, _⟩ := follows
  cases before
  cases after
  simp only [Monitor.Counted, Monitor.mk.injEq, true_and]
  exact ⟨order, names, failed, latencies, graph, bound, uncompensated, misaligned⟩

/-- What blocks and refreshes leave of a new plan: signals, nodes and counters aside, it
is as it was. -/
structure Plan.Worn (patch : Patch ν) (options : CompileOptions) (placed : List (Placed ν)) (survey : Survey)
    (fresh plan : Plan ν) : Prop where
  serves : plan.Serves patch options placed survey
  layout : plan.layout = fresh.layout
  monitor : fresh.monitor.Counted plan.monitor

namespace Plan.Worn

theorem start (compiled : CompiledFrom patch options placed survey fresh) : Worn patch options placed survey fresh fresh :=
  ⟨compiled.serves, rfl, rfl⟩

variable (compiled : CompiledFrom patch options placed survey fresh) (worn : Worn patch options placed survey fresh plan)
include compiled worn

theorem refreshed (refreshed : plan.Refreshed after) : after = plan := by
  obtain ⟨_, _, _, _, _, assembled⟩ := compiled.assembled
  obtain ⟨initial, aligns, compensation, links⟩ := assembled.published
  have latencies := worn.monitor.latencies
  rw [← worn.serves.graph, ← assembled.intrinsic, ← latencies] at aligns
  rw [← latencies] at compensation links
  cases refreshed with
  | refresh answer =>
    obtain ⟨alignment, again, rfl⟩ := Monitor.refresh_spec answer
    rw [aligns] at again
    cases again
    rw [← compensation, ← links, latencies, ← assembled.misaligned, ← worn.monitor.misaligned, ← latencies]
  | refreshIfDirty answer =>
    rcases Monitor.refreshIfDirty_cases answer with ⟨dirty, _⟩ | ⟨_, rfl⟩
    · rw [latencies, assembled.clean] at dirty
      cases dirty
    · rfl

theorem refreshes (refreshes : Relation.ReflTransGen Plan.Refreshed plan after) : after = plan := by
  induction refreshes with
  | refl => rfl
  | tail _ once ih =>
    subst ih
    exact worn.refreshed compiled once

end Plan.Worn

theorem Run.orderly_refreshes (abides : Node.Abides keeps) (compiled : CompiledFrom patch options placed survey fresh)
    (all : ∀ id node, patch.node? id = some node → keeps node)
    (run : Run (Relation.ReflTransGen Plan.Refreshed) fresh blocks last) :
    ∀ block ∈ blocks, ∀ call ∈ block.calls, call.Orderly options.format := by
  obtain ⟨_, _, typed⟩ := run.typed_touches abides Plan.refreshes_touches (fun changes kept position node found =>
    kept position node (Plan.refreshes_nodes changes ▸ found)) compiled.serves (compiled.keeps all)
  exact fun block member call among => (typed block member call among).orderly options.format

/-- Blocks without a failure and without news of a latency wear a plan and do nothing else. -/
theorem Run.worn (compiled : CompiledFrom patch options placed survey fresh)
    (run : Run (Relation.ReflTransGen Plan.Refreshed) fresh blocks last)
    (orderly : ∀ block ∈ blocks, ∀ call ∈ block.calls, call.Orderly options.format)
    (alive : ∀ block ∈ blocks, ∀ call ∈ block.calls, call.fails = false) (told : ∀ block ∈ blocks, fresh.Knows block) :
    Plan.Worn patch options placed survey fresh last := by
  induction run with
  | start => exact .start compiled
  | @render earlier plan block _ changes renders ih =>
    rw [forall_mem_concat] at orderly alive told
    have worn := ih orderly.1 alive.1 told.1
    obtain rfl := worn.refreshes compiled changes
    obtain ⟨_, _, _, _, made⟩ := Engine.render_spec worn.serves.ready renders orderly.2
    have counted := made.monitor.counted alive.2 fun call member runs => by
      rw [worn.monitor.latencies]
      exact told.2 call member runs
    exact ⟨worn.serves.rendered made, made.layout.trans worn.layout, worn.monitor.trans counted⟩

/-! ## Nodes that can be reset at any time -/

theorem Rendered.nodes_map {β : Type} {about : ν → β} {clock : Nat} {context : Context} {calls : List (Call ν)}
    {losses : List Nat} {output : AudioBuffer} (rendered : Rendered format clock plan context calls losses output after)
    (same : ∀ {context : Context} {node next : ν} {ports reply : Ports} {outcome : Outcome},
      Node.process context node ports = .ok (outcome, next, reply) → about next = about node) :
    after.nodes.map about = plan.nodes.map about := by
  refine Array.ext_getElem? fun position => ?_
  rw [Array.getElem?_map, Array.getElem?_map]
  by_cases called : ∃ call ∈ calls, call.position = position
  · obtain ⟨call, member, rfl⟩ := called
    obtain ⟨_, _, _, _, visit⟩ := exists_of_mem_left rendered.visits member
    rw [rendered.stepped call member, visit.node, Option.map_some, Option.map_some, same visit.answer]
  · rw [rendered.others position fun call member same => called ⟨call, member, same⟩]

/-- A reset turns the nodes into those of the new plan, and their latencies are as at
first. -/
structure Plan.Renewable (fresh plan : Plan ν) : Prop where
  resets : plan.nodes.map Node.reset = fresh.nodes
  latencies : plan.nodes.map Node.latency = fresh.nodes.map Node.latency

theorem CompiledFrom.renewable (compiled : CompiledFrom patch options placed survey fresh)
    (pristine : ∀ id node, patch.node? id = some node → Node.reset node = node) : fresh.Renewable fresh := by
  refine ⟨Array.ext_getElem? fun position => ?_, rfl⟩
  rw [Array.getElem?_map]
  cases found : fresh.nodes[position]? with
  | none => rfl
  | some node => exact congrArg some (compiled.keeps pristine position node found)

/-- If the nodes were as after a reset and no call can change that, they can be reset at
any time, and no report is news. -/
theorem Run.renewable (renews : Node.Renews ν) (compiled : CompiledFrom patch options placed survey fresh)
    (run : Run (Relation.ReflTransGen Plan.Refreshed) fresh blocks last)
    (orderly : ∀ block ∈ blocks, ∀ call ∈ block.calls, call.Orderly options.format)
    (pristine : ∀ id node, patch.node? id = some node → Node.reset node = node) :
    fresh.Renewable last ∧ ∀ block ∈ blocks, fresh.Knows block := by
  obtain ⟨_, _, _, _, _, assembled⟩ := compiled.assembled
  have intrinsic : fresh.monitor.latencies.intrinsic = fresh.nodes.map Node.latency := by
    simp [assembled.intrinsic, compiled.surveyed.intrinsic, assembled.nodes]
  obtain ⟨now, all⟩ : fresh.Renewable last ∧ ∀ block ∈ blocks, fresh.Renewable block.before ∧
      fresh.Renewable block.after := by
    refine run.invariant Plan.refreshes_touches compiled.serves orderly (compiled.renewable pristine) ?_ ?_
    · intro plan after changes _ before
      have nodes := Plan.refreshes_nodes changes
      exact ⟨nodes ▸ before.resets, nodes ▸ before.latencies⟩
    · intro block _ _ _ _ made before
      exact ⟨(made.2.nodes_map fun answer => (renews answer).1).trans before.resets,
        (made.2.nodes_map fun answer => (renews answer).2).trans before.latencies⟩
  refine ⟨now, fun block member call among _ => ?_⟩
  obtain ⟨_, _, _, _, made⟩ := (run.mono fun _ _ changes => Plan.refreshes_touches changes).serves_touches
    compiled.serves orderly |>.2 block member
  have stepped := made.2.stepped call among
  rw [intrinsic, ← (all block member).2.latencies, Array.getElem?_map, stepped, Option.map_some]

/-! ## Reset -/

/-- A reset takes away all wear but the counters. -/
theorem Plan.Worn.reset (compiled : CompiledFrom patch options placed survey fresh)
    (worn : Worn patch options placed survey fresh plan) (restores : plan.nodes.map Node.reset = fresh.nodes) :
    plan.reset = fresh.ahead ⟨plan.monitor.clamps, plan.monitor.overflows, plan.monitor.blocks, false⟩ := by
  obtain ⟨_, _, _, _, _, assembled⟩ := compiled.assembled
  have furnished := worn.serves.ready.furnished
  rw [worn.layout] at furnished
  have lanes : plan.lanes.map Lane.clear = fresh.lanes := by
    refine Array.ext (Array.size_map.trans (furnished.size.trans assembled.furnished.size.symm)) ?_
    intro index here there
    have inside : index < plan.lanes.size := by rwa [Array.size_map] at here
    have slot := List.getElem?_eq_getElem (furnished.size ▸ inside)
    have old := Array.getElem?_eq_getElem inside
    rw [assembled.lane_eq slot (Array.getElem?_eq_getElem there), Array.getElem_map, Lane.clear,
      (furnished.shapes slot old).clear_eq, (furnished.holds slot old).clear_eq]
    rfl
  have monitor : plan.monitor =
      fresh.monitor.ahead ⟨plan.monitor.clamps, plan.monitor.overflows, plan.monitor.blocks, false⟩ := by
    refine Eq.trans worn.monitor ?_
    simp only [Monitor.ahead, Latencies.mark, Bool.false_or, assembled.clamps, assembled.overflows,
      assembled.blocks, Nat.add_zero]
  simp only [Plan.reset, Plan.ahead, restores, lanes, worn.layout, ← monitor]

end Patchbay
