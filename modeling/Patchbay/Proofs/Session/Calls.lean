import Patchbay.Proofs.Checked
import Patchbay.Session.Basic

/-! What each call of a session may do.

A submission is refused, which changes nothing, or its plan goes into the handoff
and what was given back is collected. A block is silence or comes from the plan
that is current once plans have been exchanged.
-/

set_option autoImplicit false

namespace Patchbay

namespace Session

variable {ν : Type} {session after : Session ν}

structure Fresh (settings : Settings) (session : Session ν) : Prop where
  given : session.settings = settings
  plans : session.plans = {}
  silence : AudioBuffer.silence settings.blockSize settings.channels = .ok session.silence

theorem fresh_of_start {settings : Settings} (started : start settings = .ok (.ok session)) :
    session.Fresh settings := by
  unfold start at started
  split at started
  · cases started
  · obtain ⟨deadline, _, started⟩ := bind_eq_ok.mp started
    obtain ⟨silence, made, rest⟩ := bind_eq_ok.mp started
    cases rest
    exact ⟨rfl, rfl, made⟩

theorem submit_cases {plan : Plan ν} {outcome : Except EngineError Unit}
    (submitted : session.submit plan = .ok (outcome, after)) :
    after = session ∨ ∃ active, ActivePlan.ofPlan plan = .ok active ∧
      plan.layout.blockSize = session.settings.blockSize ∧
      after = ({ session with plans := session.plans.submit active } : Session ν).collect.2 := by
  unfold submit at submitted
  dsimp only at submitted
  split at submitted
  · cases submitted
    exact .inl rfl
  · split at submitted
    · cases submitted
      exact .inl rfl
    · rename_i fits
      obtain ⟨active, made, rest⟩ := bind_eq_ok.mp submitted
      cases rest
      exact .inr ⟨active, made, not_ne_iff.mp fits, rfl⟩

theorem recompile_cases [Node ν] (session : Session ν) (patch : Patch ν) :
    (session.recompile patch).2 = session ∨
      ∃ plan outcome, session.submit plan = .ok (outcome, (session.recompile patch).2) := by
  unfold recompile
  split
  · exact .inl rfl
  · exact .inl rfl
  · rename_i plan _
    split
    · exact .inl rfl
    · rename_i answer submitted
      exact .inr ⟨plan, answer.1, submitted⟩

theorem refresh_cases (refreshed : session.refresh = .ok after) :
    after = session ∨ ∃ active monitor, session.plans.newest? = some active ∧
      after = { session with plans := session.plans.modifyNewest (·.setMonitor monitor) } := by
  unfold refresh at refreshed
  split at refreshed
  · cases refreshed
    exact .inl rfl
  · rename_i active newest
    obtain ⟨⟨_, monitor⟩, _, rest⟩ := bind_eq_ok.mp refreshed
    cases rest
    exact .inr ⟨active, monitor, newest, rfl⟩

theorem render_cases [Node ν] {block? : Option AudioBuffer} (rendered : session.render = .ok (block?, after)) :
    (session.running = false ∧ block? = none ∧ after = session) ∨
    (session.running = true ∧ session.plans.swap.current = none ∧ block? = some session.silence ∧
      after = { session with plans := session.plans.swap }) ∨
    ∃ active engine plan context, session.running = true ∧ session.plans.swap.current = some active ∧
      active.engine.process active.plan session.context = .ok (engine, plan, context) ∧
      block? = some engine.output ∧
      after = { session with plans := { session.plans.swap with current := some ⟨plan, engine⟩ }, context } := by
  unfold render at rendered
  dsimp only at rendered
  cases running : session.running with
  | false =>
    simp only [running, Bool.not_false, if_true] at rendered
    cases rendered
    exact .inl ⟨rfl, rfl, rfl⟩
  | true =>
    simp only [running, Bool.not_true, Bool.false_eq_true, if_false] at rendered
    split at rendered
    · rename_i none
      cases rendered
      exact .inr (.inl ⟨rfl, none, rfl, rfl⟩)
    · rename_i active current
      obtain ⟨⟨engine, plan, context⟩, processed, rest⟩ := bind_eq_ok.mp rendered
      cases rest
      exact .inr (.inr ⟨active, engine, plan, context, rfl, current, processed, rfl, rfl⟩)

theorem render_eq [Node ν] (session : Session ν) {active : ActivePlan ν} (running : session.running = true)
    (current : session.plans.swap.current = some active) :
    session.render = (do
      let (engine, plan, context) ← active.engine.process active.plan session.context
      return (some engine.output,
        { session with plans := { session.plans.swap with current := some ⟨plan, engine⟩ }, context })) := by
  unfold render
  simp [running, current]

theorem running_of_render [Node ν] {block : AudioBuffer} (rendered : session.render = .ok (some block, after)) :
    session.running = true := by
  rcases render_cases rendered with ⟨_, none, _⟩ | ⟨running, _⟩ | ⟨_, _, _, _, running, _⟩
  · cases none
  · exact running
  · exact running

/-- What can become of a session as long as its renderer is there. -/
inductive Reached [Node ν] (settings : Settings) : Session ν → Prop where
  | fresh {session : Session ν} : session.Fresh settings → Reached settings session
  | submit {session after : Session ν} {plan : Plan ν} {outcome : Except EngineError Unit} :
      Reached settings session → session.submit plan = .ok (outcome, after) → Reached settings after
  | recompile {session : Session ν} (patch : Patch ν) :
      Reached settings session → Reached settings (session.recompile patch).2
  | collect {session : Session ν} : Reached settings session → Reached settings session.collect.2
  | refresh {session after : Session ν} :
      Reached settings session → session.refresh = .ok after → Reached settings after
  | render {session after : Session ν} {block? : Option AudioBuffer} :
      Reached settings session → session.render = .ok (block?, after) → Reached settings after
  /-- Nodes change from outside. -/
  | mapNodes {session : Session ν} (change : ν → ν) :
      Reached settings session → Reached settings (session.mapNodes change)
  | stop {session : Session ν} : Reached settings session → Reached settings session.stop

end Session

end Patchbay
