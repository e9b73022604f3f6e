import Patchbay.Proofs.Node.Access
import Patchbay.Render.Engine

/-! The space of a renderer.

Space made for a plan fits it: no room in it is smaller than the plan needs for what
is merged in one block. A renderer that was prepared for a plan has such space, whether
it was made for this plan or for another.
-/

set_option autoImplicit false

namespace Patchbay

variable {layout : Layout}

/-- There is room for the samples of any input, and for all events of the sources of
any node. -/
structure MergeSpace.Wide (layout : Layout) (space : MergeSpace) : Prop where
  audio : layout.maxInputSamples ≤ space.audio.size
  midi : layout.eventCapacity * max layout.maxNodeRoutes 1 ≤ space.midi.capacity
  trigger : layout.eventCapacity * max layout.maxNodeRoutes 1 ≤ space.trigger.capacity

theorem MergeSpace.Wide.alike {layout : Layout} {space other : MergeSpace} (wide : space.Wide layout)
    (alike : space.Alike other) : other.Wide layout :=
  ⟨alike.audio ▸ wide.audio, alike.midi ▸ wide.midi, alike.trigger ▸ wide.trigger⟩

def Engine.Whole (engine : Engine) : Prop :=
  engine.output.samples.size = engine.output.frames * engine.output.channels

theorem AudioBuffer.frames_eq {buffer : AudioBuffer} {frames : Nat} (positive : 0 < buffer.channels)
    (size : buffer.samples.size = frames * buffer.channels) : buffer.frames = frames := by
  rw [AudioBuffer.frames, size, Nat.mul_div_cancel _ positive]

namespace Scratch

variable {scratch : Scratch}

theorem fits_iff : scratch.fits layout = .ok true ↔
    layout.eventCapacity * max layout.maxNodeRoutes 1 < Count.limit ∧ layout.maxNodeRoutes ≤ scratch.sourceRoom ∧
      layout.maxNodeInputs ≤ scratch.portRoom ∧ scratch.space.Wide layout ∧
      scratch.output.frames = layout.blockSize ∧ scratch.output.channels = layout.sinkChannels := by
  simp only [fits, Layout.mergedEvents, bind_eq_ok, pure_eq_ok, Count.mul_eq_ok, Bool.and_eq_true, decide_eq_true_eq]
  constructor
  · rintro ⟨events, ⟨few, rfl⟩, ⟨⟨⟨⟨⟨sources, ports⟩, audio⟩, midi⟩, trigger⟩, frames⟩, channels⟩
    exact ⟨few, sources, ports, ⟨audio, midi, trigger⟩, frames, channels⟩
  · rintro ⟨few, sources, ports, ⟨audio, midi, trigger⟩, frames, channels⟩
    exact ⟨_, ⟨few, rfl⟩, ⟨⟨⟨⟨⟨sources, ports⟩, audio⟩, midi⟩, trigger⟩, frames⟩, channels⟩

theorem fits_answers {events : Nat} (scratch : Scratch) (merged : layout.mergedEvents = .ok events) :
    ∃ fits, scratch.fits layout = .ok fits := by
  unfold fits
  rw [merged, ok_bind]
  exact ⟨_, rfl⟩

def blank (layout : Layout) : Scratch where
  sourceRoom := layout.maxNodeRoutes
  portRoom := layout.maxNodeInputs
  space := {
    audio := Array.replicate layout.maxInputSamples 0
    midi := .empty (layout.eventCapacity * max layout.maxNodeRoutes 1)
    trigger := .empty (layout.eventCapacity * max layout.maxNodeRoutes 1) }
  output := ⟨Array.replicate (layout.blockSize * max layout.sinkChannels 1) 0, max layout.sinkChannels 1⟩

theorem forLayout_eq_ok : forLayout layout = .ok scratch ↔
    (layout.maxInputSamples * 4 < Count.storageLimit ∧
      layout.eventCapacity * max layout.maxNodeRoutes 1 * 8 < Count.storageLimit ∧
      layout.blockSize * max layout.sinkChannels 1 * 4 < Count.storageLimit) ∧ scratch = blank layout := by
  simp only [forLayout, Layout.mergedEvents, EventList.reserved, AudioBuffer.silence, bind_eq_ok, pure_eq_ok,
    Count.mul_eq_ok, Count.reserve_eq_ok, Count.limit, Count.storageLimit]
  constructor
  · rintro ⟨_, ⟨_, rfl⟩, _, samples, _, ⟨_, few, rfl⟩, _, ⟨_, _, rfl⟩, _, ⟨_, ⟨_, rfl⟩, _, output, rfl⟩, rfl⟩
    exact ⟨⟨samples, few, output⟩, rfl⟩
  · rintro ⟨⟨samples, few, output⟩, rfl⟩
    exact ⟨_, ⟨by omega, rfl⟩, ⟨⟩, samples, _, ⟨⟨⟩, few, rfl⟩, _, ⟨⟨⟩, few, rfl⟩, _,
      ⟨_, ⟨by omega, rfl⟩, ⟨⟩, output, rfl⟩, rfl⟩

theorem forLayout_spec (channels : 0 < layout.sinkChannels) (made : forLayout layout = .ok scratch) :
    scratch.fits layout = .ok true ∧
      scratch.output.samples.size = scratch.output.frames * scratch.output.channels := by
  obtain ⟨⟨_, few, _⟩, rfl⟩ := forLayout_eq_ok.mp made
  have width : (blank layout).output.channels = layout.sinkChannels := max_eq_left channels
  have size : (blank layout).output.samples.size = layout.blockSize * (blank layout).output.channels :=
    Array.size_replicate
  have frames := AudioBuffer.frames_eq (width ▸ channels) size
  refine ⟨fits_iff.mpr ⟨?_, le_refl _, le_refl _, ⟨Array.size_replicate.ge, le_refl _, le_refl _⟩, frames, width⟩, ?_⟩
  · unfold Count.storageLimit at few
    unfold Count.limit
    omega
  · rw [frames, size]

theorem forLayout_ok {events : Nat} (merged : layout.mergedEvents = .ok events)
    (samples : layout.maxInputSamples * 4 < Count.storageLimit) (few : events * 8 < Count.storageLimit)
    (output : layout.blockSize * max layout.sinkChannels 1 * 4 < Count.storageLimit) :
    ∃ scratch, forLayout layout = .ok scratch := by
  obtain ⟨_, rfl⟩ := Count.mul_eq_ok.mp merged
  exact ⟨_, forLayout_eq_ok.mpr ⟨⟨samples, few, output⟩, rfl⟩⟩

end Scratch

namespace Engine

variable {engine prepared rendered : Engine}

theorem whole_new : Engine.new.Whole := rfl

theorem prepare_eq_ok : engine.prepare layout = .ok prepared ↔
    engine.scratch.fits layout = .ok true ∧ prepared = engine ∨
      engine.scratch.fits layout = .ok false ∧ forLayout layout = .ok prepared := by
  simp only [prepare, bind_eq_ok]
  constructor
  · rintro ⟨fits, decided, answer⟩
    cases fits with
    | true =>
      cases answer
      exact .inl ⟨decided, rfl⟩
    | false => exact .inr ⟨decided, answer⟩
  · rintro (⟨decided, rfl⟩ | ⟨decided, made⟩)
    · exact ⟨true, decided, rfl⟩
    · exact ⟨false, decided, made⟩

theorem prepare_cases (channels : 0 < layout.sinkChannels) (answer : engine.prepare layout = .ok prepared) :
    engine.scratch.fits layout = .ok true ∧ prepared = engine ∨
      prepared.scratch.fits layout = .ok true ∧ prepared.Whole := by
  rcases prepare_eq_ok.mp answer with kept | ⟨_, made⟩
  · exact .inl kept
  · simp only [forLayout, bind_eq_ok, pure_eq_ok] at made
    obtain ⟨scratch, made, rfl⟩ := made
    exact .inr (Scratch.forLayout_spec channels made)

theorem prepare_fits (channels : 0 < layout.sinkChannels) (answer : engine.prepare layout = .ok prepared) :
    prepared.scratch.fits layout = .ok true := by
  rcases prepare_cases channels answer with ⟨fits, rfl⟩ | ⟨fits, _⟩
  · exact fits
  · exact fits

theorem Whole.prepare (whole : engine.Whole) (channels : 0 < layout.sinkChannels)
    (answer : engine.prepare layout = .ok prepared) : prepared.Whole := by
  rcases prepare_cases channels answer with ⟨_, rfl⟩ | ⟨_, whole⟩
  · exact whole
  · exact whole

theorem Whole.of_prepare (whole : engine.Whole) (channels : 0 < layout.sinkChannels)
    (answer : engine.prepare layout = .ok prepared) : prepared.scratch.space.Wide layout ∧
      prepared.output.channels = layout.sinkChannels ∧
      prepared.output.samples.size = layout.blockSize * layout.sinkChannels := by
  obtain ⟨_, _, _, wide, frames, width⟩ := Scratch.fits_iff.mp (prepare_fits channels answer)
  refine ⟨wide, width, ?_⟩
  rw [← frames, ← width]
  exact whole.prepare channels answer

theorem render_parts {ν : Type} [Node ν] {plan after : Plan ν} {context moved : Context} {calls : List (Call ν)}
    (answer : engine.render plan context = .ok (calls, rendered, after, moved)) :
    ∃ scratch clock state sink output, engine.prepare plan.layout = .ok ⟨scratch⟩ ∧ context.clock = .ok clock ∧
      Progress.runFrom context clock plan.layout.blockSize 0 plan.layout.stations
        ⟨plan.nodes, plan.lanes, plan.monitor, scratch.space⟩ = .ok (calls, state) ∧
      state.lanes[plan.layout.sinkLane]? = some sink ∧
      (match sink.buffer.audio? with
        | some block => scratch.output.copyFrom block.samples
        | none => .ok scratch.output) = .ok output ∧
      rendered = ⟨{ scratch with space := state.space, output }⟩ ∧
      after = { plan with nodes := state.nodes, lanes := state.lanes, monitor := state.monitor.countBlock } ∧
      context.advance = .ok moved := by
  simp only [render, bind_eq_ok, Prod.exists, itemAt_eq_ok] at answer
  obtain ⟨⟨scratch⟩, prepared, clock, ticks, _, state, passed, sink, atSink, answer⟩ := answer
  refine ⟨scratch, clock, state, sink, rendered.output, prepared, ticks, ?_⟩
  cases audio : sink.buffer.audio? with
  | some block =>
    simp only [audio, bind_eq_ok, pure_eq_ok, Prod.mk.injEq] at answer
    obtain ⟨output, emitted, _, advanced, rfl, rfl, rfl, rfl⟩ := answer
    exact ⟨passed, atSink, emitted, rfl, rfl, advanced⟩
  | none =>
    simp only [audio, bind_eq_ok, pure_eq_ok, Prod.mk.injEq] at answer
    obtain ⟨output, rfl, _, advanced, rfl, rfl, rfl, rfl⟩ := answer
    exact ⟨passed, atSink, rfl, rfl, rfl, advanced⟩

/-- A rendered block is as long as the renderer was prepared for, whatever came from the sink. -/
theorem Whole.render {ν : Type} [Node ν] {plan after : Plan ν} {context moved : Context} {calls : List (Call ν)}
    (whole : engine.Whole) (channels : 0 < plan.layout.sinkChannels)
    (answer : engine.render plan context = .ok (calls, rendered, after, moved)) :
    rendered.Whole ∧ rendered.output.samples.size = plan.layout.blockSize * plan.layout.sinkChannels := by
  obtain ⟨scratch, _, state, sink, output, prepares, _, _, _, emitted, rfl, _⟩ := render_parts answer
  have same : output.samples.size = scratch.output.samples.size ∧ output.channels = scratch.output.channels := by
    split at emitted
    · unfold AudioBuffer.copyFrom at emitted
      split at emitted
      · rename_i size
        cases emitted
        exact ⟨size, rfl⟩
      · cases emitted
    · cases emitted
      exact ⟨rfl, rfl⟩
  obtain ⟨_, _, size⟩ := whole.of_prepare channels prepares
  refine ⟨?_, same.1.trans size⟩
  show output.samples.size = output.samples.size / output.channels * output.channels
  rw [same.1, same.2]
  exact whole.prepare channels prepares

end Engine

end Patchbay
