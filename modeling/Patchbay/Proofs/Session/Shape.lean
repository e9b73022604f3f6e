import Patchbay.Proofs.Plan.Acceptance
import Patchbay.Proofs.Render.Scratch
import Patchbay.Proofs.Session.Calls
import Patchbay.Proofs.Session.Custody

/-! The shape of a session's blocks.

Every block has as many frames as the session's settings say, since no plan with
other blocks is accepted. Its channels are those of the settings as long as there
is silence and those of the plan's sink from then on, since nothing compares the
two. So the shape stays what the settings say exactly as long as every plan that
becomes current has their channels.
-/

set_option autoImplicit false

namespace Patchbay

namespace AudioBuffer

def Shaped (buffer : AudioBuffer) (frames channels : Nat) : Prop :=
  buffer.channels = channels ∧ buffer.samples.size = frames * channels

theorem shaped_silence {buffer : AudioBuffer} {frames channels : Nat} (made : silence frames channels = .ok buffer) :
    buffer.Shaped frames (max channels 1) := by
  simp only [silence, bind_eq_ok, Count.mul_eq_ok, pure_eq_ok] at made
  obtain ⟨_, ⟨_, rfl⟩, _, _, rfl⟩ := made
  exact ⟨rfl, Array.size_replicate⟩

theorem Shaped.copyFrom {buffer next : AudioBuffer} {source : Array Sample} {frames channels : Nat}
    (shaped : buffer.Shaped frames channels) (copied : buffer.copyFrom source = .ok next) :
    next.Shaped frames channels := by
  unfold AudioBuffer.copyFrom at copied
  split at copied
  · rename_i same
    cases copied
    exact ⟨shaped.1, same.trans shaped.2⟩
  · cases copied

end AudioBuffer

namespace Engine

variable {engine prepared rendered : Engine}

def Formed (engine : Engine) : Prop := engine.Whole ∧ 0 < engine.output.channels

theorem Formed.of_shaped {frames channels : Nat} (shaped : engine.output.Shaped frames (max channels 1)) :
    engine.Formed := by
  have positive : 0 < engine.output.channels := by
    rw [shaped.1]
    omega
  refine ⟨?_, positive⟩
  rw [Whole, AudioBuffer.frames_eq positive (shaped.1 ▸ shaped.2), shaped.1, shaped.2]

theorem forLayout_shaped {layout : Layout} (made : forLayout layout = .ok prepared) :
    prepared.output.Shaped layout.blockSize (max layout.sinkChannels 1) := by
  simp only [forLayout, bind_eq_ok, pure_eq_ok, Scratch.forLayout_eq_ok] at made
  obtain ⟨_, ⟨_, rfl⟩, rfl⟩ := made
  exact ⟨rfl, Array.size_replicate⟩

theorem Formed.prepare {layout : Layout} (formed : engine.Formed) (answer : engine.prepare layout = .ok prepared) :
    prepared.output.Shaped layout.blockSize (max layout.sinkChannels 1) := by
  rcases prepare_eq_ok.mp answer with ⟨decided, rfl⟩ | ⟨_, made⟩
  · obtain ⟨_, _, _, _, frames, channels⟩ := Scratch.fits_iff.mp decided
    have positive : max layout.sinkChannels 1 = layout.sinkChannels :=
      max_eq_left (channels ▸ formed.2 : 1 ≤ layout.sinkChannels)
    rw [positive]
    exact ⟨channels, formed.1.trans (congrArg₂ _ frames channels)⟩
  · exact forLayout_shaped made

theorem Formed.process {ν : Type} [Node ν] {plan after : Plan ν} {context moved : Context} (formed : engine.Formed)
    (answer : engine.process plan context = .ok (rendered, after, moved)) :
    rendered.output.Shaped plan.layout.blockSize (max plan.layout.sinkChannels 1) ∧ after.layout = plan.layout := by
  simp only [Engine.process, bind_eq_ok, pure_eq_ok, Prod.exists, Prod.mk.injEq] at answer
  obtain ⟨calls, _, _, _, answer, rfl, rfl, rfl⟩ := answer
  obtain ⟨scratch, _, _, sink, output, prepared, _, _, _, emitted, rfl, rfl, _⟩ := render_parts answer
  have shaped := formed.prepare prepared
  refine ⟨?_, rfl⟩
  split at emitted
  · exact shaped.copyFrom emitted
  · cases emitted
    exact shaped

end Engine

/-! ## What is held -/

namespace Handoff

variable {α : Type} {handoff : Handoff α} {item new : α} {change : α → α}

theorem mem_toList : item ∈ handoff.toList ↔ item ∈ handoff.retired ∨ handoff.current = some item ∨
    handoff.pending = some item ∨ handoff.offered = some item := by
  simp [toList]

theorem mem_submit (member : item ∈ (handoff.submit new).toList) : item ∈ handoff.toList ∨ item = new := by
  rw [submit_eq, mem_toList] at member
  rw [mem_toList]
  rcases member with retired | current | pending | offered
  · exact .inl (.inl retired)
  · exact .inl (.inr (.inl current))
  · exact .inl (.inr (.inr (.inl pending)))
  · exact .inr (Option.some.inj offered).symm

theorem mem_collectAll (member : item ∈ handoff.collectAll.2.toList) : item ∈ handoff.toList := by
  rw [mem_toList] at member ⊢
  exact .inr (member.resolve_left List.not_mem_nil)

theorem mem_modifyNewest (member : item ∈ (handoff.modifyNewest change).toList) :
    item ∈ handoff.toList ∨ ∃ old ∈ handoff.toList, change old = item := by
  simp only [mem_toList] at member ⊢
  unfold modifyNewest at member
  split at member
  · simp only [Option.map_eq_some_iff] at member
    grind
  · split at member <;> simp only [Option.map_eq_some_iff] at member <;> grind

theorem mem_map (member : item ∈ (handoff.map change).toList) : ∃ old ∈ handoff.toList, change old = item := by
  simp only [mem_toList, map, List.mem_map, Option.map_eq_some_iff] at member ⊢
  grind

end Handoff

/-! ## Sessions -/

namespace Session

variable {ν : Type} {settings : Settings} {session after : Session ν}

structure Fits (settings : Settings) (active : ActivePlan ν) : Prop where
  size : active.plan.layout.blockSize = settings.blockSize
  formed : active.engine.Formed

structure Orderly (settings : Settings) (session : Session ν) : Prop where
  given : session.settings = settings
  silence : session.silence.Shaped settings.blockSize (max settings.channels 1)
  plans : ∀ active ∈ session.plans.toList, Fits settings active

namespace Orderly

theorem collect (orderly : session.Orderly settings) : session.collect.2.Orderly settings :=
  ⟨orderly.given, orderly.silence, fun active held => orderly.plans active (Handoff.mem_collectAll held)⟩

theorem submit {plan : Plan ν} {outcome : Except EngineError Unit} (orderly : session.Orderly settings)
    (submitted : session.submit plan = .ok (outcome, after)) : after.Orderly settings := by
  rcases submit_cases submitted with rfl | ⟨active, made, size, rfl⟩
  · exact orderly
  · refine collect ⟨orderly.given, orderly.silence, fun other held => ?_⟩
    rcases Handoff.mem_submit held with old | rfl
    · exact orderly.plans other old
    simp only [ActivePlan.ofPlan, bind_eq_ok, pure_eq_ok] at made
    obtain ⟨engine, made, rfl⟩ := made
    exact ⟨orderly.given ▸ size, .of_shaped (Engine.forLayout_shaped made)⟩

theorem swap (orderly : session.Orderly settings) :
    ∀ active ∈ session.plans.swap.toList, Fits settings active := by
  rw [Handoff.swap, Handoff.toList_install, Handoff.toList_pickUp]
  exact orderly.plans

theorem render [Node ν] {block? : Option AudioBuffer} (orderly : session.Orderly settings)
    (rendered : session.render = .ok (block?, after)) : after.Orderly settings := by
  rcases render_cases rendered with ⟨_, _, rfl⟩ | ⟨_, _, _, rfl⟩ |
    ⟨active, engine, plan, context, _, current, processed, _, rfl⟩
  · exact orderly
  · exact ⟨orderly.given, orderly.silence, orderly.swap⟩
  · have fits := orderly.swap active (Handoff.mem_toList.mpr (.inr (.inl current)))
    obtain ⟨shaped, layout⟩ := fits.formed.process processed
    refine ⟨orderly.given, orderly.silence, fun other held => ?_⟩
    rcases Handoff.mem_toList.mp held with retired | same | pending | offered
    · exact orderly.swap other (Handoff.mem_toList.mpr (.inl retired))
    · cases same
      exact ⟨(congrArg Layout.blockSize layout).trans fits.size, .of_shaped shaped⟩
    · exact orderly.swap other (Handoff.mem_toList.mpr (.inr (.inr (.inl pending))))
    · exact orderly.swap other (Handoff.mem_toList.mpr (.inr (.inr (.inr offered))))

end Orderly

theorem Orderly.of_reached [Node ν] (reached : Reached settings session) : session.Orderly settings := by
  induction reached with
  | fresh fresh => exact ⟨fresh.given, AudioBuffer.shaped_silence fresh.silence, by simp [fresh.plans, Handoff.toList]⟩
  | submit _ submitted before => exact before.submit submitted
  | @recompile session patch _ before =>
      rcases session.recompile_cases patch with same | ⟨plan, outcome, submitted⟩
      · rwa [same]
      · exact before.submit submitted
  | collect _ before => exact before.collect
  | refresh _ refreshed before =>
      -- A new monitor leaves the layout alone.
      rcases refresh_cases refreshed with rfl | ⟨_, monitor, _, rfl⟩
      · exact before
      · refine ⟨before.given, before.silence, fun active held => ?_⟩
        rcases Handoff.mem_modifyNewest held with old | ⟨old, there, rfl⟩
        · exact before.plans active old
        · exact ⟨(before.plans old there).size, (before.plans old there).formed⟩
  | render _ rendered before => exact before.render rendered
  | mapNodes change _ before =>
      refine ⟨before.given, before.silence, fun active held => ?_⟩
      obtain ⟨old, there, rfl⟩ := Handoff.mem_map held
      exact ⟨(before.plans old there).size, (before.plans old there).formed⟩
  | stop _ before => exact collect ⟨before.given, before.silence, before.plans⟩

/-- The channels of the next block: those of the plan that is current by then. -/
def width (session : Session ν) : Nat :=
  match session.plans.swap.current with
  | none => max session.settings.channels 1
  | some active => max active.plan.layout.sinkChannels 1

theorem Orderly.shaped [Node ν] {block : AudioBuffer} (orderly : session.Orderly settings)
    (rendered : session.render = .ok (some block, after)) : block.Shaped settings.blockSize session.width := by
  unfold width
  rcases render_cases rendered with ⟨_, none, _⟩ | ⟨_, none, same, _⟩ |
    ⟨active, engine, plan, context, _, current, processed, same, _⟩
  · cases none
  · cases same
    rw [none, orderly.given]
    exact orderly.silence
  · cases same
    have fits := orderly.swap active (Handoff.mem_toList.mpr (.inr (.inl current)))
    rw [current, ← fits.size]
    exact (fits.formed.process processed).1

/-- Every block has the frames that the settings say. It has their channels, too, if
and only if the plan that it comes from answers in so many. -/
theorem blocks_shaped [Node ν] {block : AudioBuffer} (reached : Reached settings session)
    (rendered : session.render = .ok (some block, after)) :
    block.Shaped settings.blockSize session.width ∧
    (settings.channels ≠ 0 → (block.Shaped settings.blockSize settings.channels ↔
      ∀ active, session.plans.swap.current = some active →
        max active.plan.layout.sinkChannels 1 = settings.channels)) := by
  have orderly := Orderly.of_reached reached
  have shaped := orderly.shaped rendered
  refine ⟨shaped, fun some => ⟨fun same active current => ?_, fun answers => ?_⟩⟩
  · have width : session.width = settings.channels := shaped.1.symm.trans same.1
    rwa [Session.width, current] at width
  · have width : session.width = settings.channels := by
      unfold Session.width
      split
      · rw [orderly.given]
        omega
      · exact answers _ ‹_›
    rwa [width] at shaped

def stereo : Session Builtin where
  settings := { blockSize := 4, channels := 2 }
  running := true
  attached := true
  plans := {}
  context := .start 48000 4
  silence := ⟨Array.replicate 8 0, 2⟩
  lastMonitor := none

theorem stereo_fresh : stereo.Fresh { blockSize := 4, channels := 2 } := ⟨rfl, rfl, by decide⟩

theorem stereo_accepts : ∃ (plan : Plan Builtin) (submitted after : Session Builtin) (block : AudioBuffer),
    compile constantIntoGain stereo.settings.compileOptions = .ok (.ok plan) ∧
      stereo.submit plan = .ok (.ok (), submitted) ∧ submitted.render = .ok (some block, after) ∧
      block.channels = 1 := by
  obtain ⟨plan, compiled, ⟨outcome, submitted⟩, answer, accepted, ⟨block?, after⟩, rendered, channels⟩ :
      ∃ plan, compile constantIntoGain stereo.settings.compileOptions = .ok (.ok plan) ∧
        ∃ answer, stereo.submit plan = .ok answer ∧ answer.1.toBool = true ∧
          ∃ rendered, answer.2.render = .ok rendered ∧ rendered.1.map (·.channels) = some 1 := by decide +kernel
  obtain ⟨block, rfl, one⟩ := Option.map_eq_some_iff.mp channels
  match outcome, accepted with
  | .ok (), _ => exact ⟨plan, submitted, after, block, compiled, answer, rendered, one⟩

theorem stereo_shaped : ∃ (session after : Session Builtin) (block : AudioBuffer),
    Reached { blockSize := 4, channels := 2 } session ∧ session.render = .ok (some block, after) ∧
      block.Shaped 4 1 := by
  obtain ⟨plan, submitted, after, block, _, answer, rendered, one⟩ := stereo_accepts
  have reached : Reached { blockSize := 4, channels := 2 } submitted := .submit (.fresh stereo_fresh) answer
  have shaped := (blocks_shaped reached rendered).1
  refine ⟨submitted, after, block, reached, rendered, one, ?_⟩
  rw [shaped.2, ← shaped.1, one]

/-- The block changes its shape between the first silence and the first plan. -/
theorem stereo_narrows : ¬ ∀ (settings : Settings) (session after : Session Builtin) (block : AudioBuffer),
    settings.channels ≠ 0 → Reached settings session → session.render = .ok (some block, after) →
      block.Shaped settings.blockSize settings.channels := by
  intro keeps
  obtain ⟨plan, submitted, after, block, _, answer, rendered, one⟩ := stereo_accepts
  have shaped := keeps { blockSize := 4, channels := 2 } submitted after block (by decide)
    (.submit (.fresh stereo_fresh) answer) rendered
  exact absurd (one.symm.trans shaped.1) (by decide)

end Session

end Patchbay
