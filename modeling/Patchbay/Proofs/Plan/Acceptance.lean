import Patchbay.Node.Builtin
import Patchbay.Proofs.Plan.Assembly

/-! Which patches compile.

A patch of representable size has a plan exactly when it is well formed, and a
refusal, of a patch of any size, names something that is wrong with it.
-/

set_option autoImplicit false

namespace Patchbay

variable {ν : Type} [Node ν]

structure CompiledFrom (patch : Patch ν) (options : CompileOptions) (placed : List (Placed ν))
    (survey : Survey) (plan : Plan ν) : Prop where
  checks : patch.Checks options
  surveyed : Surveyed patch placed survey
  hasSink : patch.HasSink
  within : survey.bound ≤ options.maxCompensation
  assembled : ∃ position port channels place, SinkAt patch placed position port channels place ∧
    Assembled options placed survey (position, port, max channels 1) plan

/-- The ways a compile ends, with what is then known of the patch. -/
inductive CompileEnds (patch : Patch ν) (options : CompileOptions) :
    Checked (Except CompileError (Plan ν)) → Prop where
  | unfit {error : CompileError} (defect : patch.Defect options error) (fails : ¬ patch.Checks options) :
      CompileEnds patch options (.ok (.error error))
  | unsurveyed {order : List Nat} {fault : Fault} (checks : patch.Checks options) (ordered : patch.Ordered order)
      (failed : Survey.ofPlaced patch (patch.place order) = .error fault) :
      CompileEnds patch options (.error fault)
  | sinkless {placed : List (Placed ν)} {survey : Survey} {error : CompileError} (checks : patch.Checks options)
      (surveyed : Surveyed patch placed survey) (defect : patch.Defect options error) (noSink : ¬ patch.HasSink) :
      CompileEnds patch options (.ok (.error error))
  | tooLong {placed : List (Placed ν)} {survey : Survey} (checks : patch.Checks options)
      (surveyed : Surveyed patch placed survey) (hasSink : patch.HasSink)
      (exceeds : options.maxCompensation < survey.bound) :
      CompileEnds patch options (.ok (.error (.compensationTooLarge survey.bound options.maxCompensation)))
  | unassembled {placed : List (Placed ν)} {survey : Survey} {sink : Nat × Nat × Nat} {fault : Fault}
      (checks : patch.Checks options) (surveyed : Surveyed patch placed survey) (hasSink : patch.HasSink)
      (within : survey.bound ≤ options.maxCompensation)
      (failed : assemble options placed survey sink = .error fault) : CompileEnds patch options (.error fault)
  | planned {order : List Nat} {survey : Survey} {plan : Plan ν} (checked : patch.check options = .ok order)
      (made : Survey.ofPlaced patch (patch.place order) = .ok survey)
      (compiled : CompiledFrom patch options (patch.place order) survey plan) :
      CompileEnds patch options (.ok (.ok plan))

theorem compile_ends (patch : Patch ν) (options : CompileOptions) :
    CompileEnds patch options (compile patch options) := by
  unfold compile
  rcases patch.check_cases options with ⟨order, checked, ordered, checks⟩ | ⟨error, checked, defect, fails⟩
  · simp only [checked]
    cases made : Survey.ofPlaced patch (patch.place order) with
    | error fault => exact .unsurveyed checks ordered made
    | ok survey =>
      have placement := Placement.ofOrder ordered
      have surveyed := Survey.ofPlaced_surveyed placement checks.fits made
      rcases selectSink_cases options placement with
        ⟨position, port, channels, place, chosen, sinkAt, hasSink⟩ | ⟨error, refused, defect, noSink⟩
      · simp only [chosen, ok_bind]
        split
        · rename_i exceeds
          exact .tooLong checks surveyed hasSink exceeds
        · rename_i within
          cases assembled : assemble options (patch.place order) survey (position, port, max channels 1) with
          | error fault => exact .unassembled checks surveyed hasSink (by omega) assembled
          | ok plan =>
            exact .planned checked made ⟨checks, surveyed, hasSink, by omega, position, port, channels, place, sinkAt,
              assemble_assembled assembled⟩
      · simp only [refused, ok_bind]
        exact .sinkless checks surveyed defect noSink
  · simp only [checked]
    exact .unfit defect fails

theorem compile_steps {patch : Patch ν} {options : CompileOptions} {plan : Plan ν}
    (answer : compile patch options = .ok (.ok plan)) :
    ∃ order survey, patch.check options = .ok order ∧ Survey.ofPlaced patch (patch.place order) = .ok survey ∧
      CompiledFrom patch options (patch.place order) survey plan := by
  have ends := compile_ends patch options
  rw [answer] at ends
  cases ends with
  | planned checked made compiled => exact ⟨_, _, checked, made, compiled⟩

theorem compile_plan {patch : Patch ν} {options : CompileOptions} {plan : Plan ν}
    (answer : compile patch options = .ok (.ok plan)) :
    ∃ placed survey, CompiledFrom patch options placed survey plan := by
  obtain ⟨order, survey, _, _, compiled⟩ := compile_steps answer
  exact ⟨_, survey, compiled⟩

theorem CompiledFrom.wellFormed {patch : Patch ν} {options : CompileOptions}
    {placed : List (Placed ν)} {survey : Survey} {plan : Plan ν}
    (compiled : CompiledFrom patch options placed survey plan) : patch.WellFormed options where
  blockSize := compiled.checks.blockSize
  inhabited := compiled.checks.inhabited
  edges := compiled.checks.fits
  acyclic := compiled.checks.acyclic
  sink := compiled.hasSink
  delays := fun _ demands => (compiled.surveyed.demands_le_bound demands).trans compiled.within

/-- A refusal is for a reason. -/
theorem compile_defect {patch : Patch ν} {options : CompileOptions} {error : CompileError}
    (answer : compile patch options = .ok (.error error)) : patch.Defect options error := by
  have ends := compile_ends patch options
  rw [answer] at ends
  cases ends with
  | unfit defect _ => exact defect
  | sinkless _ _ defect _ => exact defect
  | tooLong _ surveyed _ exceeds =>
    exact ⟨rfl, exceeds, surveyed.demands_bound (by omega), fun delay demands => surveyed.demands_le_bound demands⟩

/-- A patch of representable size always gets an answer. -/
theorem compile_answers {patch : Patch ν} {options : CompileOptions}
    (representable : patch.Representable options) : ∃ answer, compile patch options = .ok answer := by
  have ends := compile_ends patch options
  generalize compile patch options = result at ends ⊢
  cases ends with
  | unsurveyed checks ordered failed =>
    obtain ⟨survey, made⟩ :=
      Survey.ofPlaced_ok (Placement.ofOrder ordered) checks.fits (representable.latencies checks.acyclic)
    rw [made] at failed
    cases failed
  | unassembled checks surveyed hasSink within failed =>
    obtain ⟨plan, assembled⟩ := assemble_ok surveyed checks.acyclic representable within _
    rw [assembled] at failed
    cases failed
  | unfit | sinkless | tooLong | planned => exact ⟨_, rfl⟩

theorem compile_ok {patch : Patch ν} {options : CompileOptions}
    (representable : patch.Representable options) (wellFormed : patch.WellFormed options) :
    ∃ plan, compile patch options = .ok (.ok plan) := by
  obtain ⟨answer, compiled⟩ := compile_answers representable
  have ends := compile_ends patch options
  rw [compiled] at ends ⊢
  cases ends with
  | planned => exact ⟨_, rfl⟩
  | unfit _ fails =>
    exact absurd ⟨wellFormed.blockSize, wellFormed.inhabited, wellFormed.edges, wellFormed.acyclic⟩ fails
  | sinkless _ _ _ noSink => exact absurd wellFormed.sink noSink
  | tooLong _ surveyed _ exceeds =>
    have := wellFormed.delays _ (surveyed.demands_bound (by omega))
    omega

/-- Compiling accepts exactly the well-formed patches, and refuses any other with
an error that is true of it. -/
theorem compile_accepts_exactly (patch : Patch ν) (options : CompileOptions) :
    (patch.Representable options →
      (∃ answer, compile patch options = .ok answer) ∧
      ((∃ plan, compile patch options = .ok (.ok plan)) ↔ patch.WellFormed options)) ∧
    ∀ error, compile patch options = .ok (.error error) → patch.Defect options error := by
  refine ⟨fun representable => ⟨compile_answers representable, ?_, compile_ok representable⟩,
    fun error => compile_defect⟩
  rintro ⟨plan, answer⟩
  obtain ⟨placed, survey, compiled⟩ := compile_plan answer
  exact compiled.wellFormed

/-! ## A small patch -/

def constantIntoGain : Patch Builtin where
  nodes := #[some (.constant ⟨1, 1⟩), some (.gain ⟨1, 1⟩)]
  edges := #[some ⟨⟨0⟩, 0, ⟨1⟩, 0, 1⟩]
  sink := none

theorem constantIntoGain_accumulates {id : NodeId} {total : Nat}
    (path : constantIntoGain.Accumulates constantIntoGain.declared id total) : total = 0 := by
  have instant : ∀ id, constantIntoGain.declared id = 0 := by
    rintro ⟨_ | _ | index⟩ <;> rfl
  induction path with
  | start => rfl
  | step _ _ ih => rw [ih, instant]

theorem constantIntoGain_output {id : NodeId} {index : Nat} {port : PortSpec}
    (output : constantIntoGain.OutputAt id index port) : port.type = .audio 1 := by
  obtain ⟨node, present, atIndex⟩ := output
  obtain ⟨_ | _ | _⟩ := id
  · cases present
    cases index with
    | zero => cases atIndex; rfl
    | succ index => cases atIndex
  · cases present
    cases index with
    | zero => cases atIndex; rfl
    | succ index => cases atIndex
  · cases present

theorem constantIntoGain_representable : constantIntoGain.Representable { blockSize := 4 } where
  latencies := by
    intro _ id total path
    rw [constantIntoGain_accumulates path]
    decide
  lines := by
    have mono : PortType.Storable (.audio 1) { blockSize := 4 } 0 := ⟨by decide, by decide⟩
    intro type delay line _
    cases line with
    | idle output _ => rw [constantIntoGain_output output]; exact mono
    | waiting output earliest =>
      obtain ⟨_, _, arrives⟩ := earliest.1
      rw [constantIntoGain_output output, constantIntoGain_accumulates arrives.1]
      exact mono
    | branch branches =>
      obtain ⟨_, ⟨port, output, rfl⟩, _, _, arrives⟩ := branches
      rw [constantIntoGain_output output, constantIntoGain_accumulates arrives.1]
      exact mono
  inputs := by
    rintro ⟨_ | _ | _⟩ index port ⟨node, present, atIndex⟩ channels type
    · cases present
      cases atIndex
    · cases present
      cases index with
      | zero => cases atIndex; cases type; decide
      | succ index => cases atIndex
    · cases present

theorem constantIntoGain_wellFormed :
    constantIntoGain.Representable { blockSize := 4 } ∧ constantIntoGain.WellFormed { blockSize := 4 } := by
  have representable := constantIntoGain_representable
  refine ⟨representable, ((compile_accepts_exactly _ _).1 representable).2.mp ?_⟩
  obtain ⟨_, compiled, plan, rfl⟩ : ∃ made, compile constantIntoGain { blockSize := 4 } = .ok made ∧
      ∃ plan, made = .ok plan := by decide +kernel
  exact ⟨plan, compiled⟩

end Patchbay
