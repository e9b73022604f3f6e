import Patchbay.Proofs.Plan.Sizes
import Patchbay.Proofs.Render.Fresh
import Patchbay.Proofs.Render.Sounding

/-! Where blocks are cut is not heard.

Nothing that a compile decides depends on the size of blocks, and library nodes go
through their input frame by frame. So a patch sounds the same in blocks of any
size. Only the space that is reserved grows with the blocks.
-/

set_option autoImplicit false

namespace Patchbay

/-! ## Compiling -/

section

variable {ν : Type} [Node ν] {patch : Patch ν} (options : CompileOptions) {first second : Nat}
  (positive : 0 < first) (positive' : 0 < second)
include positive positive'

theorem Patch.check_sized :
    patch.check { options with blockSize := first } = patch.check { options with blockSize := second } := by
  unfold check
  rw [if_neg (Nat.ne_of_gt positive), if_neg (Nat.ne_of_gt positive')]

theorem compile_refuses {error : CompileError}
    (answer : compile patch { options with blockSize := first } = .ok (.error error)) :
    compile patch { options with blockSize := second } = .ok (.error error) := by
  unfold compile at answer ⊢
  rw [Patch.check_sized options positive' positive]
  split at answer
  · exact answer
  · rename_i order checked
    simp only [bind_eq_ok] at answer
    obtain ⟨survey, made, answer⟩ := answer
    simp only [made, ok_bind]
    split at answer
    · exact answer
    · split at answer
      · rename_i exceeds
        rw [if_pos exceeds]
        exact answer
      · simp at answer

omit positive positive' in
theorem compile_alike {plan plan' : Plan ν}
    (compiled : compile patch { options with blockSize := first } = .ok (.ok plan))
    (compiled' : compile patch { options with blockSize := second } = .ok (.ok plan')) :
    ∃ placed survey, CompiledFrom patch { options with blockSize := first } placed survey plan ∧
      CompiledFrom patch { options with blockSize := second } placed survey plan' := by
  obtain ⟨order, survey, checked, made, origin⟩ := compile_steps compiled
  obtain ⟨order', survey', checked', made', origin'⟩ := compile_steps compiled'
  rw [Patch.check_sized options origin.checks.blockSize origin'.checks.blockSize, checked'] at checked
  cases checked
  rw [made'] at made
  cases made
  exact ⟨_, _, origin, origin'⟩

end

/-- A block for the channels of any node can be addressed. -/
def Patch.Addressable (patch : Patch Builtin) (blockSize : Nat) : Prop :=
  ∀ id node, patch.node? id = some node → blockSize * max node.channels 1 * 4 < Count.storageLimit

theorem Patch.Line.exists_output {ν : Type} [Node ν] {patch : Patch ν} {type : PortType} {delay : Nat}
    (line : patch.Line type delay) : ∃ id port spec, patch.OutputAt id port spec ∧ spec.type = type := by
  cases line with
  | idle output | waiting output => exact ⟨_, _, _, output, rfl⟩
  | branch branches =>
    obtain ⟨_, ⟨spec, output, type⟩, _⟩ := branches
    exact ⟨_, _, spec, output, type⟩

section

variable {patch : Patch Builtin} {options : CompileOptions} {placed : List (Placed Builtin)} {survey : Survey}
  {plan : Plan Builtin}

theorem CompiledFrom.addressable (compiled : CompiledFrom patch options placed survey plan) :
    patch.Addressable options.blockSize := by
  intro id node present
  obtain ⟨position, item⟩ := compiled.surveyed.placement.exists_position present
  obtain ⟨port, member⟩ : ∃ port, port ∈ Node.outputs node := by
    cases node <;> exact ⟨_, List.mem_cons_self⟩
  have storable := compiled.output_storable item member
  rw [Builtin.outputs_audio member] at storable
  exact storable.1

theorem CompiledFrom.assemble_again (compiled : CompiledFrom patch options placed survey plan) {blockSize : Nat}
    (addressable : patch.Addressable blockSize) (sink : Nat × Nat × Nat) :
    ∃ plan', assemble { options with blockSize } placed survey sink = .ok plan' := by
  have surveyed := compiled.surveyed
  obtain ⟨_, _, _, _, _, assembled⟩ := compiled.assembled
  obtain ⟨initial, aligned, _⟩ := assembled.published
  -- The size matters to blocks only: the lines are as long as those of the plan that there is.
  refine assemble_ok_of_storable aligned ?_ ?_ sink
  · intro slot member
    have storable := assembled.storable slot (by rwa [Layout.slots, assembled.stations])
    obtain ⟨line, _⟩ := (Layout.layStations_stations surveyed).slots_line slot member
    obtain ⟨id, _, spec, ⟨node, present, atPort⟩, type⟩ := line.exists_output
    rw [← type, Builtin.outputs_audio (List.mem_of_getElem? atPort)] at storable ⊢
    exact ⟨addressable id node present, storable.2⟩
  · intro port member
    obtain ⟨place, among, atPlace⟩ := List.mem_flatMap.mp member
    have small := addressable place.id place.node (surveyed.placement.present place among)
    rw [Layout.inputSamples, Builtin.inputs_audio atPlace]
    show blockSize * max place.node.channels 1 < Count.limit
    unfold Count.storageLimit at small
    unfold Count.limit
    omega

/-- What has a plan for blocks of one size has one for blocks of another exactly if
these can be addressed. -/
theorem compile_again {first second : Nat} (positive : 0 < second)
    (accepts : ∃ plan, compile patch { options with blockSize := first } = .ok (.ok plan)) :
    (∃ plan, compile patch { options with blockSize := second } = .ok (.ok plan)) ↔ patch.Addressable second := by
  constructor
  · rintro ⟨plan, compiled⟩
    obtain ⟨placed, survey, origin⟩ := compile_plan compiled
    exact origin.addressable
  · intro addressable
    obtain ⟨plan, compiled⟩ := accepts
    obtain ⟨order, survey, checked, made, origin⟩ := compile_steps compiled
    rcases selectSink_cases options origin.surveyed.placement with
      ⟨position, port, channels, _, chosen, _, _⟩ | ⟨_, _, _, noSink⟩
    · obtain ⟨plan', assembles⟩ : ∃ plan', assemble { options with blockSize := second } (patch.place order) survey
          (position, port, max channels 1) = .ok plan' := origin.assemble_again addressable _
      refine ⟨plan', ?_⟩
      rw [Patch.check_sized options origin.checks.blockSize positive] at checked
      have within : ¬ options.maxCompensation < survey.bound := Nat.not_lt.mpr origin.within
      simp only [compile, checked, made, chosen, if_neg within, assembles, ok_bind]
      rfl
    · exact absurd origin.hasSink noSink

end

/-! ## Rendering -/

section

variable {patch : Patch Builtin} {options options' : CompileOptions} {placed : List (Placed Builtin)} {survey : Survey}
  {plan plan' last last' : Plan Builtin} {blocks blocks' : List (Block Builtin)}

theorem CompiledFrom.sounds_alike (compiled : CompiledFrom patch options placed survey plan)
    (compiled' : CompiledFrom patch options' placed survey plan')
    (proper : ∀ id node, patch.node? id = some node → node.Proper) (run : Run Eq plan blocks last)
    (run' : Run Eq plan' blocks' last') :
    (sounded blocks).length = blocks.length * options.blockSize ∧
      (sounded blocks').length = blocks'.length * options'.blockSize ∧
      ∀ count ≤ blocks.length * options.blockSize, count ≤ blocks'.length * options'.blockSize →
        (sounded blocks').take count = (sounded blocks).take count := by
  obtain ⟨_, _, _, _, _, assembled⟩ := compiled.assembled
  obtain ⟨_, _, _, _, _, assembled'⟩ := compiled'.assembled
  obtain ⟨alignment, aligns, compensation, links⟩ := assembled.published
  obtain ⟨alignment', aligns', compensation', links'⟩ := assembled'.published
  rw [aligns] at aligns'
  cases aligns'
  obtain ⟨position, port, place, wait, sinkAt, waits, _⟩ := compiled.exists_sink compensation aligns
  have sounds := run.sounds compiled proper compensation links aligns sinkAt waits
  have sounds' := run'.sounds compiled' proper compensation' links' aligns sinkAt waits
  -- Both plans have one order and one alignment.
  have arrivals : plan'.arrivalOf alignment = plan.arrivalOf alignment := by
    funext id
    rw [Plan.arrivalOf, Plan.arrivalOf, Monitor.position?, Monitor.position?, assembled.order, assembled'.order]
  refine ⟨sounds.length_frames, sounds'.length_frames, fun count within within' => ?_⟩
  obtain ⟨spec, atPort, _⟩ := sinkAt.audio
  have present := compiled.surveyed.placement.present place (List.mem_of_getElem? sinkAt.item)
  refine sounds.agree sounds' ?_
  refine sounds.performs.agree sounds'.performs compiled.serves.ranked (fun _ => True) (fun id _ => ⟨rfl, rfl⟩) ?_
    within within' trivial present port (List.getElem?_eq_some_iff.mp atPort).1
  intro id _ entry into
  exact ⟨trivial, by rw [arrivals], Patch.exists_feeder compiled.surveyed.fits into⟩

end

/-- A patch of library nodes is refused in blocks of any size or of none, for the same
reason, and once it has a plan it has one for exactly the blocks that can be
addressed. Its plans render as many blocks as the clock has room for, and what they
answer with is the same for all sizes, sample for sample. -/
theorem block_size_unheard {patch : Patch Builtin} (proper : ∀ id node, patch.node? id = some node → node.Proper)
    (options : CompileOptions) {first second : Nat} (positive : 0 < first) (positive' : 0 < second) :
    (∀ error, compile patch { options with blockSize := first } = .ok (.error error) ↔
      compile patch { options with blockSize := second } = .ok (.error error)) ∧
    ((∃ plan, compile patch { options with blockSize := first } = .ok (.ok plan)) →
      ((∃ plan, compile patch { options with blockSize := second } = .ok (.ok plan)) ↔ patch.Addressable second)) ∧
    ((∃ plan, compile patch { options with blockSize := second } = .ok (.ok plan)) →
      ((∃ plan, compile patch { options with blockSize := first } = .ok (.ok plan)) ↔ patch.Addressable first)) ∧
    ∀ plan plan', compile patch { options with blockSize := first } = .ok (.ok plan) →
      compile patch { options with blockSize := second } = .ok (.ok plan') →
      (plan.layout.Mergeable → plan.Startable first) ∧ (plan'.layout.Mergeable → plan'.Startable second) ∧
      ∀ blocks blocks' last last', Run Eq plan blocks last → Run Eq plan' blocks' last' →
        (sounded blocks).length = blocks.length * first ∧ (sounded blocks').length = blocks'.length * second ∧
        (sounded blocks').take (min (blocks.length * first) (blocks'.length * second)) =
          (sounded blocks).take (min (blocks.length * first) (blocks'.length * second)) := by
  refine ⟨fun error => ⟨compile_refuses options positive positive', compile_refuses options positive' positive⟩,
    compile_again positive', compile_again positive, ?_⟩
  intro plan plan' compiled compiled'
  obtain ⟨placed, survey, origin, origin'⟩ := compile_alike options compiled compiled'
  have fits : ∀ id node, patch.node? id = some node → node.Fits := fun id node present => (proper id node present).fits
  refine ⟨origin.startable Builtin.acts fits, origin'.startable Builtin.acts fits, ?_⟩
  intro blocks blocks' last last' run run'
  obtain ⟨length, length', agree⟩ := origin.sounds_alike origin' proper run run'
  exact ⟨length, length', agree _ (Nat.min_le_left ..) (Nat.min_le_right ..)⟩

theorem echo_proper {id : NodeId} {node : Builtin} (found : echo.node? id = some node) : node.Proper := by
  obtain ⟨_ | _ | _ | _⟩ := id <;> cases found
  · exact ⟨trivial, trivial⟩
  · exact ⟨rfl, fun frame member => absurd member (Array.not_mem_empty frame), rfl⟩
  · exact ⟨trivial, trivial⟩

/-- The echo is the same in one block of four frames and in two blocks of three. -/
theorem echo_unheard : ∃ (plan plan' last last' : Plan Builtin) (blocks blocks' : List (Block Builtin)),
    compile echo { blockSize := 4 } = .ok (.ok plan) ∧ compile echo { blockSize := 3 } = .ok (.ok plan') ∧
      Run Eq plan blocks last ∧ Run Eq plan' blocks' last' ∧ blocks.length = 1 ∧ blocks'.length = 2 ∧
      (sounded blocks').take 4 = (sounded blocks).take 4 := by
  obtain ⟨plan, compiled, plan', compiled', samples, routes, events, bound, samples', routes', events',
      bound'⟩ : ∃ plan, compile echo { blockSize := 4 } = .ok (.ok plan) ∧
      ∃ plan', compile echo { blockSize := 3 } = .ok (.ok plan') ∧
        plan.layout.maxInputSamples = 4 ∧ plan.layout.maxNodeRoutes = 2 ∧ plan.layout.eventCapacity = 256 ∧
        plan.monitor.compensationBound = 2 ∧ plan'.layout.maxInputSamples = 3 ∧ plan'.layout.maxNodeRoutes = 2 ∧
        plan'.layout.eventCapacity = 256 ∧ plan'.monitor.compensationBound = 2 := by decide +kernel
  obtain ⟨_, _, _, both⟩ := block_size_unheard (fun _ _ => echo_proper) { blockSize := 4 } (show 0 < 4 by decide)
    (show 0 < 3 by decide)
  obtain ⟨starts, starts', agree⟩ := both plan plan' compiled compiled'
  obtain ⟨blocks, _, last, run, length, _⟩ :=
    starts ⟨by rw [samples]; decide, by rw [events, routes]; decide⟩ 48000 1 (by rw [bound]; decide)
  obtain ⟨blocks', _, last', run', length', _⟩ :=
    starts' ⟨by rw [samples']; decide, by rw [events', routes']; decide⟩ 48000 2 (by rw [bound']; decide)
  obtain ⟨_, _, same⟩ := agree blocks blocks' last last' run run'
  rw [length, length'] at same
  exact ⟨plan, plan', last, last', blocks, blocks', compiled, compiled', run, run', length, length', same⟩

/-- Blocks that are too long to be addressed are not compiled for. -/
theorem constantIntoGain_too_long : (∃ plan, compile constantIntoGain { blockSize := 4 } = .ok (.ok plan)) ∧
    compile constantIntoGain { blockSize := 2 ^ 62 } = .error .storage := by
  obtain ⟨plan, compiled, fails⟩ : ∃ plan, compile constantIntoGain { blockSize := 4 } = .ok (.ok plan) ∧
      compile constantIntoGain { blockSize := 2 ^ 62 } = .error .storage := by decide +kernel
  exact ⟨⟨plan, compiled⟩, fails⟩

end Patchbay
