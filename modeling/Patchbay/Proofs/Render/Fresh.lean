import Patchbay.Proofs.Render.Unfailing

/-! Runs from a fresh start.

A new renderer and a new context take a compiled plan through any number of blocks,
as long as the clock has room and the merges that the plan asks for can be addressed.
-/

set_option autoImplicit false

namespace Patchbay

/-! ## Contexts -/

namespace Context

def after (sampleRate blockSize count : Nat) : Context :=
  { start sampleRate blockSize with position := count * blockSize, blockIndex := count }

variable {sampleRate blockSize count : Nat}

theorem after_clock (room : count * blockSize < Count.limit) :
    (after sampleRate blockSize count).clock = .ok (count * blockSize) := Count.mul_eq_ok.mpr ⟨room, rfl⟩

theorem after_advance (positive : 0 < blockSize) (room : (count + 1) * blockSize < Count.limit) :
    (after sampleRate blockSize count).advance = .ok (after sampleRate blockSize (count + 1)) := by
  have few : count + 1 < Count.limit := (Nat.le_mul_of_pos_right _ positive).trans_lt room
  have index : Count.add count 1 = .ok (count + 1) := Count.add_eq_ok.mpr ⟨few, rfl⟩
  have position : Count.add (count * blockSize) blockSize = .ok ((count + 1) * blockSize) := by
    rw [Count.add_eq_ok, ← Nat.succ_mul]
    exact ⟨room, rfl⟩
  simp only [advance, after, start, index, position, ok_bind, if_true]
  rfl

end Context

/-! ## Runs -/

variable {ν : Type}

inductive FromStart (sampleRate blockSize : Nat) : List (Block ν) → Engine → Prop where
  | start : FromStart sampleRate blockSize [] .new
  | render {blocks : List (Block ν)} {block : Block ν} : FromStart sampleRate blockSize blocks block.engine →
      block.context = .after sampleRate blockSize blocks.length →
      FromStart sampleRate blockSize (blocks ++ [block]) block.rendered

structure Layout.Mergeable (layout : Layout) : Prop where
  audio : layout.maxInputSamples * 4 < Count.storageLimit
  events : layout.eventCapacity * max layout.maxNodeRoutes 1 * 8 < Count.storageLimit

theorem Layout.Mergeable.mergedEvents {layout : Layout} (mergeable : layout.Mergeable) :
    layout.mergedEvents = .ok (layout.eventCapacity * max layout.maxNodeRoutes 1) := by
  have small := mergeable.events
  refine Count.mul_eq_ok.mpr ⟨?_, rfl⟩
  unfold Count.storageLimit Count.limit at *
  omega

variable [Node ν] {patch : Patch ν} {options : CompileOptions} {placed : List (Placed ν)} {survey : Survey}
  {plan : Plan ν} {keeps : ν → Prop}

/-- From a fresh start, a plan is rendered for as many blocks as the clock has room
for, at any sample rate. -/
def Plan.Startable (plan : Plan ν) (blockSize : Nat) : Prop :=
  ∀ sampleRate count, count * blockSize + 2 ^ 32 + plan.monitor.compensationBound < Count.limit →
    ∃ blocks engine last, Run Eq plan blocks last ∧ blocks.length = count ∧ FromStart sampleRate blockSize blocks engine

theorem CompiledFrom.exists_run (compiled : CompiledFrom patch options placed survey plan) (acts : Node.Acts keeps)
    (all : ∀ id node, patch.node? id = some node → keeps node) (mergeable : plan.layout.Mergeable)
    (sampleRate : Nat) {count : Nat}
    (time : count * options.blockSize + 2 ^ 32 + plan.monitor.compensationBound < Count.limit) :
    ∃ blocks engine last, Run Eq plan blocks last ∧ blocks.length = count ∧
      FromStart sampleRate options.blockSize blocks engine ∧ engine.Whole := by
  induction count with
  | zero => exact ⟨[], .new, plan, .start, rfl, .start, Engine.whole_new⟩
  | succ count ih =>
    have room : count * options.blockSize + options.blockSize + 2 ^ 32 + survey.bound < Count.limit := by
      rwa [Nat.succ_mul, compiled.serves.bound] at time
    -- The next block takes up the plan and the renderer as the blocks before it left them.
    obtain ⟨blocks, engine, last, run, length, fresh, whole⟩ := ih (by
      rw [compiled.serves.bound]
      omega)
    have managed : Run (Relation.ReflTransGen (Plan.Managed keeps)) plan blocks last :=
      run.mono fun _ _ same => same ▸ .refl
    obtain ⟨complete, layout⟩ := managed.complete acts (compiled.complete all)
    have sound := complete.serves.ready.sound
    have size := sound.blockSize
    have provided := compiled.provided
    have output := compiled.sink_storable.2
    rw [← layout] at provided output mergeable
    -- Were there no room, the merges would need more than can be addressed.
    obtain ⟨prepared, prepares⟩ : ∃ prepared, engine.prepare last.layout = .ok prepared := by
      rcases engine.prepare_ok mergeable.mergedEvents output with prepares | ⟨_, large⟩
      · exact prepares
      · have := mergeable.audio
        have := mergeable.events
        omega
    have positive := compiled.checks.blockSize
    have advances := @Context.after_advance sampleRate options.blockSize count positive (by
      rw [Nat.succ_mul]
      omega)
    have ticks := @Context.after_clock sampleRate options.blockSize count (by omega)
    obtain ⟨calls, rendered, after, renders, still⟩ := complete.renders acts provided whole prepares ticks (by
      rw [size]
      show _ + options.blockSize < _
      omega) advances
    let block : Block ν := ⟨engine, last, .after sampleRate options.blockSize count, calls, rendered, after,
      .after sampleRate options.blockSize (count + 1)⟩
    have next : FromStart sampleRate options.blockSize (blocks ++ [block]) block.rendered :=
      .render fresh (by rw [length])
    refine ⟨blocks ++ [block], rendered, block.after, run.render rfl renders, ?_, next, still⟩
    rw [List.length_append, length, List.length_singleton]

theorem CompiledFrom.startable (compiled : CompiledFrom patch options placed survey plan) (acts : Node.Acts keeps)
    (all : ∀ id node, patch.node? id = some node → keeps node) (mergeable : plan.layout.Mergeable) :
    plan.Startable options.blockSize := by
  intro sampleRate count time
  obtain ⟨blocks, engine, last, run, length, fresh, _⟩ := compiled.exists_run acts all mergeable sampleRate time
  exact ⟨blocks, engine, last, run, length, fresh⟩

end Patchbay
