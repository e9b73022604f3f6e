import Mathlib.Logic.Function.Basic
import Patchbay.Proofs.Render.Arrival
import Patchbay.Proofs.Render.Lockstep

/-! One renderer for many plans.

A renderer keeps its space from call to call, with whatever the last plan left there.
Any number of plans can still share one: what a call answers, and what it makes of
its plan and context, is what a renderer made for that call alone would answer.
-/

set_option autoImplicit false

namespace Patchbay

variable {ν ι κ : Type}

/-! ## Calls on a renderer -/

structure Rack (ν ι κ : Type) where
  plans : ι → Plan ν
  contexts : κ → Context

inductive Engine.Request (ι κ : Type) where
  /-- Renders the next block of a plan. -/
  | process (plan : ι) (context : κ)
  | prepare (plan : ι)
  /-- Gives the renderer new space that was made for a plan. -/
  | adopt (plan : ι)

def Engine.Request.plan : Request ι κ → ι
  | .process plan _ => plan
  | .prepare plan => plan
  | .adopt plan => plan

section

variable [Node ν] [DecidableEq ι] [DecidableEq κ]

def Engine.serve (engine : Engine) (rack : Rack ν ι κ) :
    Engine.Request ι κ → Checked (Option AudioBuffer × Engine × Rack ν ι κ)
  | .process plan context => do
      let (next, after, moved) ← engine.process (rack.plans plan) (rack.contexts context)
      return (some next.output, next,
        ⟨Function.update rack.plans plan after, Function.update rack.contexts context moved⟩)
  | .prepare plan => return (none, ← engine.prepare (rack.plans plan).layout, rack)
  | .adopt plan => do
      let (_, next) := engine.adopt (← Scratch.forLayout (rack.plans plan).layout)
      return (none, next, rack)

/-- One renderer takes all calls. After each, what it answered and the rack. -/
def Rack.share (engine : Engine) (rack : Rack ν ι κ) :
    List (Engine.Request ι κ) → Checked (List (Option AudioBuffer × Rack ν ι κ))
  | [] => .ok []
  | request :: rest => do
      let (block, next, after) ← engine.serve rack request
      return (block, after) :: (← after.share next rest)

/-- Every call is taken by a new renderer, made for the plan that the call is about. -/
def Rack.renew (rack : Rack ν ι κ) : List (Engine.Request ι κ) → Checked (List (Option AudioBuffer × Rack ν ι κ))
  | [] => .ok []
  | request :: rest => do
      let engine ← Engine.forLayout (rack.plans request.plan).layout
      let (block, _, after) ← engine.serve rack request
      return (block, after) :: (← after.renew rest)

end

/-! ## One call -/

def Plan.Accepted [Node ν] (keeps : ν → Prop) (plan : Plan ν) : Prop :=
  ∃ patch options, compile patch options = .ok (.ok plan) ∧ ∀ id node, patch.node? id = some node → keeps node

def Rack.Playable (keeps : ν → Prop) (rack : Rack ν ι κ) : Prop :=
  ∀ name, ∃ format, (rack.plans name).Playable format keeps

variable [Node ν] {keeps : ν → Prop}

theorem Plan.Accepted.playable {plan : Plan ν} (accepted : plan.Accepted keeps) :
    ∃ format, plan.Playable format keeps := by
  obtain ⟨patch, options, answer, all⟩ := accepted
  obtain ⟨_, _, compiled⟩ := compile_plan answer
  exact ⟨_, compiled.playable all⟩

namespace Engine

variable {format : Format} {plan : Plan ν} {engine : Engine}

omit [Node ν] in
theorem forLayout_prepares {layout : Layout} (channels : 0 < layout.sinkChannels)
    (made : forLayout layout = .ok engine) : engine.prepare layout = .ok engine := by
  simp only [forLayout, bind_eq_ok, pure_eq_ok] at made
  obtain ⟨scratch, made, rfl⟩ := made
  unfold prepare
  rw [(Scratch.forLayout_spec channels made).1]
  rfl

omit [Node ν] in
theorem Sound.prepare_inStep (sound : engine.Sound) (playable : plan.Playable format keeps) :
    InStep (fun _ _ => True) (engine.prepare plan.layout) (forLayout plan.layout) :=
  .of_faults (sound.prepare_eq_error playable.storable) fun _ _ _ _ => trivial

theorem Sound.process_inStep (asks : Node.Asks ν) (abides : Node.Abides keeps) (sound : engine.Sound)
    (playable : plan.Playable format keeps) (context : Context) :
    InStep (fun block block' => block'.1.output = block.1.output ∧ block'.2 = block.2)
      (engine.process plan context) (do
        let fresh ← forLayout plan.layout
        fresh.process plan context) := by
  cases made : forLayout plan.layout with
  | error fault =>
    have unprepared := (sound.prepare_eq_error playable.storable fault).mpr made
    simp only [process, render, unprepared, error_bind]
    exact .fault fault
  | ok fresh =>
    have steps := render_inStep asks abides playable sound
      (sound_forLayout playable.ready.sound.channels_pos made) {} context
    simp only [Plan.ahead_zero] at steps
    refine steps.bind ?_
    rintro ⟨_, rendered, after, moved⟩ ⟨_, rendered', after', moved'⟩ - - ⟨-, output, rest⟩
    exact .answer ⟨output, rest⟩

variable [DecidableEq ι] [DecidableEq κ] {rack after : Rack ν ι κ} {request : Request ι κ}

theorem Sound.serve_inStep (asks : Node.Asks ν) (abides : Node.Abides keeps) (sound : engine.Sound)
    (playable : rack.Playable keeps) (request : Request ι κ) :
    InStep (fun answer answer' => answer'.1 = answer.1 ∧ answer'.2.2 = answer.2.2) (engine.serve rack request) (do
      let fresh ← forLayout (rack.plans request.plan).layout
      fresh.serve rack request) := by
  obtain ⟨format, here⟩ := playable request.plan
  have channels := here.ready.sound.channels_pos
  cases request with
  | process plan context =>
    have steps := sound.process_inStep asks abides here (rack.contexts context)
    simp only [serve, Request.plan, ← bind_assoc]
    refine steps.bind ?_
    rintro ⟨next, after, moved⟩ ⟨next', _⟩ - - ⟨output, rfl⟩
    exact .answer ⟨congrArg some output, rfl⟩
  | prepare plan =>
    refine (sound.prepare_inStep here).bind ?_
    rintro next fresh - made -
    have prepares : fresh.prepare (rack.plans plan).layout = .ok fresh := forLayout_prepares channels made
    simp only [serve, prepares, ok_bind]
    exact .answer ⟨rfl, rfl⟩
  | adopt plan =>
    simp only [serve, Request.plan, forLayout]
    cases Scratch.forLayout (rack.plans plan).layout with
    | error fault => exact .fault fault
    | ok scratch => exact .answer ⟨rfl, rfl⟩

theorem Sound.serve (abides : Node.Abides keeps) (sound : engine.Sound) (playable : rack.Playable keeps)
    {block : Option AudioBuffer} {next : Engine} (answer : engine.serve rack request = .ok (block, next, after)) :
    next.Sound ∧ after.Playable keeps := by
  obtain ⟨format, here⟩ := playable request.plan
  have channels := here.ready.sound.channels_pos
  cases request with
  | process plan context =>
    simp only [Engine.serve, process, bind_eq_ok, pure_eq_ok, Prod.exists, Prod.mk.injEq] at answer
    obtain ⟨_, played, _, ⟨_, _, _, _, renders, rfl, rfl, rfl⟩, rfl, rfl, rfl⟩ := answer
    obtain ⟨still, _, sound⟩ := render_playable abides here sound renders
    refine ⟨sound, fun name => ?_⟩
    dsimp only
    -- Only the plan that was played is another one now.
    by_cases same : name = plan
    · rw [same, Function.update_self]
      exact ⟨format, still⟩
    · rw [Function.update_of_ne same]
      exact playable name
  | prepare plan =>
    simp only [Engine.serve, bind_eq_ok, pure_eq_ok, Prod.mk.injEq] at answer
    obtain ⟨_, prepares, _, rfl, rfl⟩ := answer
    exact ⟨sound.prepare channels prepares, playable⟩
  | adopt plan =>
    simp only [Engine.serve, bind_eq_ok, pure_eq_ok, Prod.mk.injEq] at answer
    obtain ⟨scratch, made, _, rfl, rfl⟩ := answer
    have fresh : forLayout (rack.plans plan).layout = .ok ⟨scratch⟩ := by
      rw [forLayout, made, ok_bind]
      rfl
    exact ⟨sound_forLayout channels fresh, playable⟩

end Engine

/-! ## All calls -/

variable [DecidableEq ι] [DecidableEq κ] {rack : Rack ν ι κ}

/-- However its space came about, a renderer answers all calls as new renderers would. -/
theorem Engine.Sound.share_eq {engine : Engine} (asks : Node.Asks ν) (abides : Node.Abides keeps) (sound : engine.Sound)
    (playable : rack.Playable keeps) (requests : List (Engine.Request ι κ)) :
    rack.share engine requests = rack.renew requests := by
  induction requests generalizing engine rack with
  | nil => rfl
  | cons request rest ih =>
    apply InStep.eq
    simp only [Rack.share, Rack.renew, ← bind_assoc]
    refine (sound.serve_inStep asks abides playable request).bind ?_
    rintro ⟨block, next, after⟩ ⟨_, fresh, _⟩ answer - ⟨rfl, rfl⟩
    obtain ⟨sound, playable⟩ := sound.serve abides playable answer
    simp only [ih sound playable]
    exact .refl _

/-- A renderer carries nothing from one plan to another: whatever the order in which
plans are rendered, prepared for and given space to, all comes out as if each call
had a renderer of its own. The nodes have to write through the accessors of their
ports, and where space cannot be made both end in the same fault. -/
theorem share_eq_renew (asks : Node.Asks ν) (abides : Node.Abides keeps)
    (accepted : ∀ name, (rack.plans name).Accepted keeps)
    (requests : List (Engine.Request ι κ)) : rack.share .new requests = rack.renew requests :=
  Engine.sound_new.share_eq asks abides (fun name => (accepted name).playable) requests

def Rack.pair {ν : Type} (first second : Plan ν) : Rack ν Bool Bool where
  plans name := if name then second else first
  contexts name := .start 48000 (if name then 8 else 4)

def alternating : List (Engine.Request Bool Bool) :=
  [.process false false, .process true true, .adopt true, .process false false, .prepare true, .process true true]

theorem echo_shares : ∃ first second : Plan Builtin, compile echo { blockSize := 4 } = .ok (.ok first) ∧
    compile constantIntoGain { blockSize := 8 } = .ok (.ok second) ∧
    (∃ answers, (Rack.pair first second).share .new alternating = .ok answers) ∧
    (Rack.pair first second).share .new alternating = (Rack.pair first second).renew alternating := by
  obtain ⟨first, compiled, second, compiled', answered⟩ : ∃ first, compile echo { blockSize := 4 } = .ok (.ok first) ∧
      ∃ second, compile constantIntoGain { blockSize := 8 } = .ok (.ok second) ∧
      ∃ answers, (Rack.pair first second).share .new alternating = .ok answers := by decide +kernel
  have accepted : ∀ name, ((Rack.pair first second).plans name).Accepted Builtin.Whole := by
    rintro (_ | _)
    · exact ⟨echo, _, compiled, fun _ _ => echo_whole⟩
    · refine ⟨constantIntoGain, _, compiled', ?_⟩
      rintro ⟨_ | _ | _⟩ node found <;> cases found <;> trivial
  exact ⟨first, second, compiled, compiled', answered, share_eq_renew Builtin.asks Builtin.abides accepted alternating⟩

/-! ## What does show -/

/-- A source that takes its block away and leaves a ramp in its place. -/
structure Swap where
  deriving DecidableEq

instance : Node Swap where
  name _ := "swap"
  inputs _ := []
  outputs _ := [.audio "out" 1]
  process _ node ports := .ok (.done, node, ports.put 0 (.control .zero))

def alone {ν : Type} (node : ν) : Patch ν := ⟨#[some node], #[], none⟩

/-- A sink without a block lets the renderer answer with that of another plan. A plan that
no space can be made for stops the calls, though it is prepared for and never rendered. -/
theorem swap_shows : ∃ loud : Plan (Constant ⊕ Swap),
    compile (alone (.inl ⟨1, 1⟩)) { blockSize := 4 } = .ok (.ok loud) ∧
    (∃ swapped, compile (alone (.inr {})) { blockSize := 4 } = .ok (.ok swapped) ∧
      (∃ answers, (Rack.pair loud swapped).share .new [.process false false, .process true false] = .ok answers ∧
        answers.map Prod.fst = [some ⟨#[1, 1, 1, 1], 1⟩, some ⟨#[1, 1, 1, 1], 1⟩]) ∧
      ∃ answers, (Rack.pair loud swapped).renew [.process false false, .process true false] = .ok answers ∧
        answers.map Prod.fst = [some ⟨#[1, 1, 1, 1], 1⟩, some ⟨#[0, 0, 0, 0], 1⟩]) ∧
    ∃ vast, compile (alone (.inl ⟨1, 1⟩)) { blockSize := 4, eventCapacity := 2 ^ 60 } = .ok (.ok vast) ∧
      (Rack.pair loud vast).share .new [.process false false, .prepare true, .process false false] =
        .error .storage ∧
      ∃ answers, (Rack.pair loud vast).renew [.process false false, .process false false] = .ok answers ∧
        answers.map Prod.fst = [some ⟨#[1, 1, 1, 1], 1⟩, some ⟨#[1, 1, 1, 1], 1⟩] := by
  decide +kernel

end Patchbay
