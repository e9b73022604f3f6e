import Patchbay.Proofs.Checked
import Patchbay.Proofs.Patch.Order
import Patchbay.Proofs.Patch.WellFormed

/-! The checks before a patch is laid out.

An accepted patch has fitting edges and an order; each refusal names something
that is wrong with the patch.
-/

set_option autoImplicit false

namespace Patchbay

variable {ν : Type} [Node ν]

theorem PortType.eq_iff {first second : PortType} :
    first = second ↔
      first.kind = second.kind ∧ (first.kind = .audio → first.channels = second.channels) := by
  cases first <;> cases second <;> simp [PortType.kind, PortType.channels]

namespace Patch

variable {patch : Patch ν}

theorem fits_iff {edge : Edge} : patch.Fits edge ↔
    ∃ output input, patch.OutputAt edge.source edge.sourcePort output ∧
      patch.InputAt edge.dest edge.destPort input ∧ output.type = input.type := by
  simp only [Fits, PortSpec.kind, PortType.eq_iff]

theorem Fits.joined (fits : ∀ id edge, patch.edge? id = some edge → patch.Fits edge) :
    patch.Joined := by
  intro id edge found
  obtain ⟨_, _, ⟨source, atSource, _⟩, ⟨dest, atDest, _⟩, _⟩ := fits id edge found
  exact ⟨⟨source, atSource⟩, dest, atDest⟩

theorem checkEdge_cases (options : CompileOptions) {id : EdgeId} {edge : Edge}
    (found : patch.edge? id = some edge) :
    (patch.checkEdge id edge = .ok () ∧ patch.Fits edge) ∨
    ∃ error, patch.checkEdge id edge = .error error ∧ patch.Defect options error ∧
      ¬ patch.Fits edge := by
  unfold checkEdge
  cases atSource : patch.node? edge.source with
  | none =>
    refine .inr ⟨_, rfl, ⟨edge, found, .inl rfl, atSource⟩, ?_⟩
    rintro ⟨_, _, ⟨source, present, _⟩, _⟩
    simp [atSource] at present
  | some source =>
  cases atDest : patch.node? edge.dest with
  | none =>
    refine .inr ⟨_, rfl, ⟨edge, found, .inr rfl, atDest⟩, ?_⟩
    rintro ⟨_, _, _, ⟨dest, present, _⟩, _⟩
    simp [atDest] at present
  | some dest =>
  have outputOf : ∀ port, patch.OutputAt edge.source edge.sourcePort port ↔
      (Node.outputs source)[edge.sourcePort]? = some port := by
    simp [OutputAt, atSource]
  have inputOf : ∀ port, patch.InputAt edge.dest edge.destPort port ↔
      (Node.inputs dest)[edge.destPort]? = some port := by
    simp [InputAt, atDest]
  cases atOutput : (Node.outputs source)[edge.sourcePort]? with
  | none =>
    refine .inr ⟨.danglingPort id edge.source edge.sourcePort, by simp only [atOutput],
      ⟨edge, found, .inl ⟨rfl, rfl, by simp [outputOf, atOutput]⟩, source, atSource⟩, ?_⟩
    rintro ⟨output, _, present, _⟩
    simp [outputOf, atOutput] at present
  | some output =>
  cases atInput : (Node.inputs dest)[edge.destPort]? with
  | none =>
    refine .inr ⟨.danglingPort id edge.dest edge.destPort, by simp only [atOutput, atInput],
      ⟨edge, found, .inr ⟨rfl, rfl, by simp [inputOf, atInput]⟩, dest, atDest⟩, ?_⟩
    rintro ⟨_, input, _, present, _⟩
    simp [inputOf, atInput] at present
  | some input =>
  have fits : patch.Fits edge ↔ output.type = input.type := by
    rw [fits_iff]
    simp [outputOf, inputOf, atOutput, atInput]
  simp only [atOutput, atInput, fits]
  have outputIs := (outputOf output).mpr atOutput
  have inputIs := (inputOf input).mpr atInput
  -- The message for two audio ports names channels, any other names kinds.
  by_cases bothAudio : ∃ channels others, output.type = .audio channels ∧ input.type = .audio others
  · obtain ⟨channels, others, ofOutput, ofInput⟩ := bothAudio
    simp only [ofOutput, ofInput, PortType.audio.injEq]
    by_cases same : channels = others
    · exact .inl ⟨if_pos same, same⟩
    · exact .inr ⟨_, if_neg same,
        ⟨edge, output, input, found, outputIs, inputIs, ofOutput, ofInput, same⟩, same⟩
  · have kinds : output.type = input.type ↔ output.kind = input.kind := by
      unfold PortSpec.kind
      constructor
      · exact congrArg PortType.kind
      · intro same
        revert bothAudio same
        cases output.type <;> cases input.type <;> simp [PortType.kind]
    rw [kinds]
    split
    · rename_i ofOutput ofInput
      exact absurd ⟨_, _, ofOutput, ofInput⟩ bothAudio
    · by_cases same : output.kind = input.kind
      · exact .inl ⟨if_pos same, same⟩
      · exact .inr ⟨_, if_neg same, ⟨edge, output, input, found, outputIs, inputIs, rfl, rfl, same⟩, same⟩

structure Checks (patch : Patch ν) (options : CompileOptions) : Prop where
  blockSize : 0 < options.blockSize
  inhabited : ∃ id node, patch.node? id = some node
  fits : ∀ id edge, patch.edge? id = some edge → patch.Fits edge
  acyclic : patch.Acyclic

theorem check_cases (patch : Patch ν) (options : CompileOptions) :
    (∃ order, patch.check options = .ok order ∧ patch.Ordered order ∧ patch.Checks options) ∨
    ∃ error, patch.check options = .error error ∧ patch.Defect options error ∧
      ¬ patch.Checks options := by
  unfold check
  -- The checks come one after another: each case has passed those above it.
  by_cases noSize : options.blockSize = 0
  · refine .inr ⟨_, if_pos noSize, noSize, fun checks => ?_⟩
    have := checks.blockSize
    omega
  rw [if_neg noSize]
  by_cases empty : patch.isEmpty = true
  · refine .inr ⟨_, if_pos empty, isEmpty_iff.mp empty, fun checks => ?_⟩
    obtain ⟨id, node, present⟩ := checks.inhabited
    rw [isEmpty_iff.mp empty id] at present
    cases present
  rw [if_neg empty]
  cases edges : patch.liveEdges.forM fun edge => patch.checkEdge edge.1 edge.2 with
  | error error =>
    obtain ⟨⟨id, edge⟩, member, refused⟩ := forM_eq_error edges
    rcases checkEdge_cases options (mem_liveEdges.mp member) with
      ⟨accepted, _⟩ | ⟨other, refusal, defect, misfit⟩
    · simp [refused] at accepted
    · obtain rfl : error = other := by simpa [refused] using refusal
      exact .inr ⟨error, rfl, defect, fun checks => misfit (checks.fits id edge (mem_liveEdges.mp member))⟩
  | ok done =>
    have fits : ∀ id edge, patch.edge? id = some edge → patch.Fits edge := by
      intro id edge found
      have accepted := forM_eq_ok.mp edges (id, edge) (mem_liveEdges.mpr found)
      rcases checkEdge_cases options found with ⟨_, fits⟩ | ⟨_, refusal, _, _⟩
      · exact fits
      · simp [accepted] at refusal
    simp only [ok_bind]
    rcases renderOrder_cases (Fits.joined fits) with ⟨order, answer, ordered⟩ | ⟨stuck, answer, behind⟩
    · refine .inl ⟨order, by rw [answer], ordered, by omega, ?_, fits, ordered.acyclic (Fits.joined fits)⟩
      rw [isEmpty_iff] at empty
      push Not at empty
      obtain ⟨id, present⟩ := empty
      exact ⟨id, Option.ne_none_iff_exists'.mp present⟩
    · refine .inr ⟨.cycle stuck, by rw [answer], behind, fun checks => ?_⟩
      obtain ⟨origin, cycle, _⟩ := behind
      exact checks.acyclic origin cycle

end Patch

end Patchbay
