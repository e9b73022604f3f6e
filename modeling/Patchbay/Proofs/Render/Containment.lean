import Patchbay.Proofs.Render.Refinement
import Patchbay.Proofs.Render.Silence
import Patchbay.Proofs.Render.Twins

/-! What a node does stays with it and with what it can reach.

No other node can tell whether the node went on, skipped or failed, nor what it wrote.
A node that has failed is never called again and stays silent.
-/

set_option autoImplicit false

namespace Patchbay

variable {ν : Type}

def Plan.withNode (plan : Plan ν) (position : Nat) (node : ν) : Plan ν :=
  { plan with nodes := plan.nodes.setIfInBounds position node }

def Plan.Silent [Node ν] (patch : Patch ν) (options : CompileOptions) (id : NodeId) (plan : Plan ν) : Prop :=
  ∀ (port : Nat) spec, patch.OutputAt id port spec →
    plan.output? id port = some (options.format.silence spec.type)

/-! ## Failed nodes -/

structure Plan.MutedAt (format : Format) (plan : Plan ν) (position : Nat) (station : Station) : Prop where
  failed : plan.monitor.isFailedAt position = true
  silent : ∀ {port : Nat} {type}, station.outputs[port]? = some type →
    ∃ item, plan.lanes[station.base + port]? = some item ∧ item.buffer = format.silence type

variable [Node ν] {patch : Patch ν} {options : CompileOptions} {placed : List (Placed ν)} {survey : Survey}
  {position : Nat} {station : Station} {format : Format}

theorem Plan.MutedAt.touched {plan after : Plan ν} (muted : plan.MutedAt format position station)
    (touched : plan.Touched after) : after.MutedAt format position station := by
  cases touched with
  | adjusted changes =>
    refine ⟨?_, fun typed => ?_⟩
    · rw [Monitor.isFailedAt, changes.failed]
      exact muted.failed
    · rw [changes.lanes]
      exact muted.silent typed
  | reset =>
    refine ⟨muted.failed, fun {port type} typed => ?_⟩
    obtain ⟨item, found, silent⟩ := muted.silent typed
    refine ⟨item.clear, by simp [reset, found], ?_⟩
    rw [Lane.clear, silent]
    exact (Format.shapes_silence type).clear_eq

theorem Plan.MutedAt.touches {plan after : Plan ν} (muted : plan.MutedAt format position station)
    (touches : Relation.ReflTransGen Plan.Touched plan after) : after.MutedAt format position station := by
  induction touches with
  | refl => exact muted
  | tail _ touched ih => exact ih.touched touched

namespace Block.Made

variable {block : Block ν} {clock : Nat} {losses : List Nat}

theorem muted (before : block.before.Serves patch options placed survey)
    (made : block.Made options.format clock losses)
    (found : block.before.layout.stations[position]? = some station)
    (muted : block.before.MutedAt options.format position station) :
    block.after.MutedAt options.format position station := by
  refine ⟨?_, fun {port type} typed => ?_⟩
  · rw [made.2.monitor.failed, muted.failed, Bool.true_or]
  · have inside := (List.getElem?_eq_some_iff.mp typed).1
    rw [made.untouched before found muted.failed (by omega) (Nat.add_lt_add_left inside _)]
    exact muted.silent typed

theorem mutes (made : block.Made format clock losses) {call : Call ν} (member : call ∈ block.calls)
    (found : block.before.layout.stations[call.position]? = some station) (fails : call.fails = true) :
    block.after.MutedAt format call.position station :=
  ⟨(made.failedAt_eq member).trans fails, fun typed => made.silenced member found fails typed⟩

end Block.Made

/-- However long a plan goes on, a failed node is not called and stays silent. -/
theorem Run.muted {first last : Plan ν} {blocks : List (Block ν)}
    (run : Run (Relation.ReflTransGen Plan.Touched) first blocks last)
    (serves : first.Serves patch options placed survey)
    (orderly : ∀ block ∈ blocks, ∀ call ∈ block.calls, call.Orderly options.format)
    (found : first.layout.stations[position]? = some station)
    (muted : first.MutedAt options.format position station) :
    last.MutedAt options.format position station ∧ ∀ block ∈ blocks,
      (∀ call ∈ block.calls, call.position ≠ position) ∧ block.after.MutedAt options.format position station := by
  obtain ⟨_, made⟩ := run.serves_touches serves orderly
  obtain ⟨ends, all⟩ := @Run.invariant _ _ _ _ _ _ _ _ _ _ (·.MutedAt options.format position station) run id serves
    orderly muted (fun _ _ touches _ muted => muted.touches touches)
    fun _ _ _ before layout made muted => made.muted before (layout ▸ found) muted
  refine ⟨ends, fun block member => ?_⟩
  obtain ⟨_, _, _, _, made⟩ := made block member
  exact ⟨made.not_called (all block member).1.failed, (all block member).2⟩

namespace Plan.Serves

variable {plan twin : Plan ν} {place : Placed ν} (serves : plan.Serves patch options placed survey)
  (item : placed[position]? = some place) (found : plan.layout.stations[position]? = some station)
include serves item found

theorem silent (muted : plan.MutedAt options.format position station) : plan.Silent patch options place.id := by
  intro port spec output
  have typed := (serves.stations.output_iff item found).mpr ⟨spec, output, rfl⟩
  obtain ⟨lane, held, carried⟩ := serves.output?_eq item found (List.getElem?_eq_some_iff.mp typed).1
  obtain ⟨_, there, silent⟩ := muted.silent typed
  rw [held] at there
  cases there
  rw [carried, silent]

theorem output?_agree (serves' : twin.Serves patch options placed survey) (layout : twin.layout = plan.layout)
    (agree : plan.AgreeAt twin position station) (port : Nat) :
    twin.output? place.id port = plan.output? place.id port := by
  simp only [Plan.output?, serves.position?_eq item, serves'.position?_eq item, layout, found, Option.bind_eq_bind,
    Option.bind_some]
  by_cases inside : port < station.outputs.length
  · rw [if_pos inside, if_pos inside, agree.lanes _ (by omega) (Nat.add_lt_add_left inside _)]
  · rw [if_neg inside, if_neg inside]

end Plan.Serves

/-! ## Containment -/

/-- A plan that was given another node still agrees with itself elsewhere. -/
theorem Plan.Serves.abreast {plan : Plan ν} (serves : plan.Serves patch options placed survey) {id : NodeId}
    (placedAt : plan.monitor.order[position]? = some id) (node : ν) :
    plan.Abreast patch options placed survey id plan (plan.withNode position node) := by
  refine ⟨serves, serves.adjusted ⟨rfl, rfl, rfl, rfl, rfl, rfl⟩, rfl, rfl, rfl, rfl, rfl, ?_⟩
  intro spot _ dest _ there clear
  refine ⟨rfl, ?_, fun _ _ _ => rfl⟩
  rw [withNode, Array.getElem?_setIfInBounds, if_neg]
  rintro rfl
  rw [placedAt] at there
  cases there
  exact clear .refl

namespace Plan.Serves

variable {plan : Plan ν} (serves : plan.Serves patch options placed survey) {id : NodeId}
include serves

theorem contained (placedAt : plan.monitor.order[position]? = some id) (asks : Node.Asks ν) {node : ν}
    {blocks : List (Block ν × Block ν)} {last last' : Plan ν}
    (twins : Plan.Twins plan (plan.withNode position node) blocks last last')
    (expects : ∀ pair ∈ blocks, plan.Expects pair.1 pair.2) {pair : Block ν × Block ν} (member : pair ∈ blocks)
    {spot : Nat} {other : NodeId} (there : plan.monitor.order[spot]? = some other)
    (clear : ¬ Relation.ReflTransGen patch.Feeds id other) :
    Option.Rel Call.Matches (pair.1.callAt? spot) (pair.2.callAt? spot) ∧
      pair.2.after.nodes[spot]? = pair.1.after.nodes[spot]? ∧
      ∀ port, pair.2.after.output? other port = pair.1.after.output? other port := by
  obtain ⟨place, item, rfl⟩ := serves.place_at there
  obtain ⟨station, found, _⟩ := serves.stations.stationed item
  obtain ⟨after, alike⟩ := ((serves.abreast placedAt node).twins asks twins expects).2 pair member
  have same := alike found there clear
  exact ⟨same.calls, same.after.node, after.serves.output?_agree item (after.layout ▸ found) after.serves'
    after.agree.layout same.after⟩

theorem stays_silent {sofar later : List (Block ν)} {block : Block ν} {last : Plan ν}
    (run : Run (Relation.ReflTransGen Plan.Touched) plan (sofar ++ block :: later) last)
    (orderly : ∀ other ∈ sofar ++ block :: later, ∀ call ∈ other.calls, call.Orderly options.format)
    {call : Call ν} (member : call ∈ block.calls) (fails : call.fails = true)
    (placedAt : plan.monitor.order[call.position]? = some id) :
    block.after.Silent patch options id ∧ ∀ other ∈ later,
      (∀ again ∈ other.calls, again.position ≠ call.position) ∧ other.after.Silent patch options id := by
  obtain ⟨place, item, rfl⟩ := serves.place_at placedAt
  obtain ⟨station, found, _⟩ := serves.stations.stationed item
  obtain ⟨_, all⟩ := run.serves_touches serves orderly
  have heard : ∀ other ∈ sofar ++ block :: later,
      other.after.MutedAt options.format call.position station → other.after.Silent patch options place.id := by
    intro other among muted
    obtain ⟨before, layout, _, _, made⟩ := all other among
    exact (before.rendered made.2).silent item (made.2.layout.trans layout ▸ found) muted
  obtain ⟨before, layout, _, _, made⟩ := all block (by simp)
  have muted := made.mutes member (layout ▸ found) fails
  -- What follows is a run of its own, in which the node has failed from the start.
  obtain ⟨middle, sooner, rest⟩ := run.split (List.append_cons sofar block later)
  obtain ⟨_, _, _, _, rfl⟩ := sooner.last_block rfl
  obtain ⟨_, silent⟩ := rest.muted (before.rendered made.2)
    (fun other among => orderly other (by simp [among])) (made.2.layout.trans layout ▸ found) muted
  refine ⟨heard block (by simp) muted, fun other among => ?_⟩
  obtain ⟨uncalled, muted⟩ := silent other among
  exact ⟨uncalled, heard other (by simp [among]) muted⟩

end Plan.Serves

/-- A node that passes triggers on and fires one more, until it blows. -/
structure Fuse where
  /-- Blocks until it blows; a fuse without a number holds. -/
  left : Option Nat
  deriving DecidableEq

namespace Fuse

def outcome (fuse : Fuse) : Outcome := if fuse.left = some 0 then .failed "blown" else .done

def burn (fuse : Fuse) : Fuse := ⟨fuse.left.map (· - 1)⟩

def fire (list : EventList UInt32) (heard : Option (List Trigger)) : EventList UInt32 :=
  { list with events := (⟨0, 0⟩ :: heard.getD []).take list.capacity }

end Fuse

instance : Node Fuse where
  name _ := "fuse"
  inputs _ := [.trigger "in"]
  outputs _ := [.trigger "out", .audio "sound" 1]
  process _ fuse ports :=
    match ports.triggerOut? 0 with
    | none => .ok (.noOutput, fuse, ports)
    | some list =>
        let (heard, inputs) := ports.inputs.triggers 0
        .ok (fuse.outcome, fuse.burn, { ports with inputs }.put 0 (.trigger (Fuse.fire list heard)))

theorem Fuse.abides : Node.Abides fun _ : Fuse => True := by
  intro context node next ports reply outcome _ answer
  refine ⟨?_, trivial⟩
  simp only [Node.process] at answer
  split at answer
  · cases answer
    exact .refl
  · rename_i list found
    cases answer
    exact Relation.ReflTransGen.tail (.single (.triggersIn 0)) (.triggersOut _ found (List.length_take_le _ _))

theorem Fuse.asks : Node.Asks Fuse := by
  intro context fuse
  refine @Ports.Asks.look _ (fun _ outputs ports =>
    match outputs[0]?.bind (·.trigger?) with
    | none => .ok (.noOutput, fuse, ports)
    | some list =>
        let (heard, inputs) := ports.inputs.triggers 0
        .ok (fuse.outcome, fuse.burn,
          { inputs, outputs := outputs.setIfInBounds 0 (.trigger (fire list heard)) })) fun sources outputs => ?_
  cases outputs[0]?.bind (·.trigger?) with
  | none => exact .answer _ _
  | some list =>
    exact @Ports.Asks.triggers _ (fun heard ports => .ok (fuse.outcome, fuse.burn,
      { ports with outputs := outputs.setIfInBounds 0 (.trigger (fire list heard)) })) 0 fun heard =>
        .write _ (.answer _ _)

def fuseBox : Patch Fuse where
  nodes := #[some ⟨some 0⟩, some ⟨none⟩, some ⟨none⟩, some ⟨none⟩]
  edges := #[some ⟨⟨0⟩, 0, ⟨2⟩, 0, 1⟩, some ⟨⟨1⟩, 0, ⟨2⟩, 0, 1⟩, some ⟨⟨1⟩, 0, ⟨3⟩, 0, 1⟩,
    some ⟨⟨1⟩, 0, ⟨3⟩, 0, 1⟩]
  sink := none

theorem fuseBox_apart : ¬ Relation.TransGen fuseBox.Feeds ⟨0⟩ ⟨3⟩ := by
  have edges : ∀ {source dest}, fuseBox.Feeds source dest →
      (source = ⟨0⟩ ∧ dest = ⟨2⟩) ∨ source = ⟨1⟩ := by
    rintro source dest ⟨⟨_ | _ | _ | _ | _⟩, edge, found, rfl, rfl⟩ <;> cases found <;> decide
  have reached : ∀ {dest}, Relation.TransGen fuseBox.Feeds ⟨0⟩ dest → dest = ⟨2⟩ := by
    intro dest path
    induction path with
    | single feeds => exact (edges feeds).elim And.right (by rintro ⟨⟩)
    | tail _ feeds ih => exact (edges feeds).elim And.right (by rintro rfl; cases ih)
  intro path
  cases reached path

def Call.Repeats (plan : Plan Fuse) (call : Call Fuse) : Prop :=
  call.fails = false → plan.monitor.latencies.intrinsic[call.position]? = some (Node.latency call.next)

instance (plan : Plan Fuse) (call : Call Fuse) : Decidable (call.Repeats plan) :=
  inferInstanceAs (Decidable (_ → _))

/-- Fuses use the accessors of their ports, so that only what they say of latencies is left to check. -/
theorem fuseBox_expects {plan last last' : Plan Fuse} {blocks : List (Block Fuse × Block Fuse)}
    (compiled : compile fuseBox { blockSize := 4 } = .ok (.ok plan)) (order : plan.monitor.order[0]? = some ⟨0⟩)
    (twins : Plan.Twins plan (plan.withNode 0 ⟨none⟩) blocks last last')
    (repeats : ∀ pair ∈ blocks, ∀ call ∈ pair.1.calls ++ pair.2.calls, call.Repeats plan) :
    ∀ pair ∈ blocks, plan.Expects pair.1 pair.2 := by
  obtain ⟨placed, survey, origin⟩ := compile_plan compiled
  have abreast := origin.serves.abreast order ⟨none⟩
  obtain ⟨⟨_, run, _⟩, _, run', _⟩ := twins.run
  obtain ⟨_, _, typed⟩ := run.typed_touches Fuse.abides id (fun _ _ _ _ _ => trivial) abreast.serves
    fun _ _ _ => trivial
  obtain ⟨_, _, typed'⟩ := run'.typed_touches Fuse.abides id (fun _ _ _ _ _ => trivial) abreast.serves'
    fun _ _ _ => trivial
  intro pair member
  exact {
    typed := typed pair.1 (List.mem_map_of_mem member)
    typed' := typed' pair.2 (List.mem_map_of_mem member)
    knows := fun call among => repeats pair member call (List.mem_append_left _ among)
    knows' := fun call among => repeats pair member call (List.mem_append_right _ among) }

theorem fuseBox_blows : ∃ (plan : Plan Fuse) (first first' second second' : Block Fuse),
    compile fuseBox { blockSize := 4 } = .ok (.ok plan) ∧ plan.monitor.order[0]? = some ⟨0⟩ ∧
    Plan.Twins plan (plan.withNode 0 ⟨none⟩) [(first, first'), (second, second')] second.after second'.after ∧
    (∀ pair ∈ [(first, first'), (second, second')], plan.Expects pair.1 pair.2) ∧
    second.before = first.after.reset ∧ (∃ call ∈ first.calls, call.position = 0 ∧ call.fails = true) ∧
    second'.after.output? ⟨0⟩ 0 ≠ second.after.output? ⟨0⟩ 0 := by
  obtain ⟨plan, compiled, ⟨calls, engine, middle, moved⟩, renders, ⟨calls', engine', middle', moved'⟩,
      renders', ⟨later, engines, after, ends⟩, again, ⟨later', engines', after', ends'⟩, again', order, repeats,
      repeats', blows, differs⟩ : ∃ plan, compile fuseBox { blockSize := 4 } = .ok (.ok plan) ∧
      ∃ first, Engine.new.render plan (.start 48000 4) = .ok first ∧
      ∃ first', Engine.new.render (plan.withNode 0 ⟨none⟩) (.start 48000 4) = .ok first' ∧
      ∃ second, first.2.1.render first.2.2.1.reset first.2.2.2 = .ok second ∧
      ∃ second', first'.2.1.render first'.2.2.1.reset first.2.2.2 = .ok second' ∧
        plan.monitor.order[0]? = some ⟨0⟩ ∧ (∀ call ∈ first.1 ++ first'.1, call.Repeats plan) ∧
        (∀ call ∈ second.1 ++ second'.1, call.Repeats plan) ∧
        (∃ call ∈ first.1, call.position = 0 ∧ call.fails = true) ∧
        second'.2.2.1.output? ⟨0⟩ 0 ≠ second.2.2.1.output? ⟨0⟩ 0 := by decide +kernel
  let first : Block Fuse := ⟨.new, plan, .start 48000 4, calls, engine, middle, moved⟩
  let first' : Block Fuse := ⟨.new, plan.withNode 0 ⟨none⟩, .start 48000 4, calls', engine', middle', moved'⟩
  let second : Block Fuse := ⟨engine, middle.reset, moved, later, engines, after, ends⟩
  let second' : Block Fuse := ⟨engine', middle'.reset, moved, later', engines', after', ends'⟩
  have begun : Plan.Twins plan (plan.withNode 0 ⟨none⟩) [(first, first')] middle middle' :=
    @Plan.Twins.render _ _ _ _ [] first first' .start rfl renders renders'
  have twins : Plan.Twins plan (plan.withNode 0 ⟨none⟩) [(first, first'), (second, second')] after after' :=
    @Plan.Twins.render _ _ _ _ [(first, first')] second second' (begun.command .reset rfl rfl) rfl again again'
  refine ⟨plan, first, first', second, second', compiled, order, twins, ?_, rfl, blows, differs⟩
  refine fuseBox_expects compiled order twins fun pair member => ?_
  rcases List.mem_pair.mp member with rfl | rfl
  · exact repeats
  · exact repeats'

end Patchbay
