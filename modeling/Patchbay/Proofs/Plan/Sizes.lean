import Patchbay.Proofs.Latency.Solution
import Patchbay.Proofs.Plan.Acceptance

/-! Patches too large to compile.

A compile stops without an answer where a sum of latencies or a reservation is no
count. So whatever has a plan is of representable size, and nothing but its size can
keep a well-formed patch from having one.
-/

set_option autoImplicit false

namespace Patchbay

theorem PortType.Storable.undelayed {type : PortType} {options : CompileOptions} {delay : Nat}
    (storable : type.Storable options delay) : type.Storable options 0 := by
  cases type with
  | audio channels => exact ⟨storable.1, by rw [Nat.zero_mul, Nat.zero_mul]; decide⟩
  | control => trivial
  | midi | trigger => exact ⟨storable.1, fun positive => absurd positive (Nat.lt_irrefl 0)⟩

variable {ν : Type} [Node ν]

theorem Layout.largestInput_lt {blockSize largest : Nat} {placed : List (Placed ν)}
    (answer : largestInput blockSize placed = .ok largest) : largest < Count.limit := by
  refine foldlM_keeps (· < Count.limit) (fun {soFar port _} _ below step => ?_) (show 0 < Count.limit by decide) answer
  cases type : port.type with
  | audio channels =>
    simp only [type, bind_eq_ok, pure_eq_ok, Count.mul_eq_ok] at step
    obtain ⟨_, ⟨fits, rfl⟩, rfl⟩ := step
    exact max_lt below fits
  | midi | control | trigger =>
    simp only [type] at step
    cases step
    exact below

section

variable {patch : Patch ν} {options : CompileOptions} {placed : List (Placed ν)} {survey : Survey} {plan : Plan ν}

/-- Every sum of latencies along a path that was surveyed is a count. -/
theorem Surveyed.accumulates_lt (surveyed : Surveyed patch placed survey) {id : NodeId} {total : Nat}
    (path : patch.Accumulates patch.declared id total) : total < Count.limit := by
  cases path with
  | start => decide
  | step feeds before =>
    have total := Patch.Accumulates.step feeds before
    obtain ⟨edgeId, edge, found, rfl, rfl⟩ := feeds
    obtain ⟨_, _, _, ⟨node, present, _⟩, _⟩ := surveyed.fits edgeId edge found
    obtain ⟨position, item⟩ := surveyed.placement.exists_position present
    exact Nat.lt_of_le_of_lt ((surveyed.worst_arrival item).2 total) (LatencyGraph.align_lt surveyed.surveys position)

namespace CompiledFrom

variable (compiled : CompiledFrom patch options placed survey plan)
include compiled

theorem output_storable {position : Nat} {place : Placed ν} (item : placed[position]? = some place) {port : PortSpec}
    (member : port ∈ Node.outputs place.node) : port.type.Storable options (survey.delayCapacity position) := by
  obtain ⟨_, _, _, _, _, assembled⟩ := compiled.assembled
  obtain ⟨station, found, stationed⟩ := (Layout.layStations_stations compiled.surveyed).stationed item
  rw [← stationed.delayCapacity]
  refine assembled.storable (port.type, station.delayCapacity) (List.mem_flatMap.mpr ⟨station, ?_, ?_⟩)
  · rw [assembled.stations]
    exact List.mem_of_getElem? found
  · refine List.mem_append_right _ (List.mem_map.mpr ⟨port.type, ?_, rfl⟩)
    rw [stationed.outputs]
    exact List.mem_map_of_mem member

theorem wire_storable {position : Nat} {place : Placed ν} (item : placed[position]? = some place) {wire : Wire}
    (member : wire ∈ (survey.wires[position]?.getD []).flatten) (room : 0 < survey.lineCapacity position wire) :
    wire.type.Storable options (survey.lineCapacity position wire) := by
  obtain ⟨_, _, _, _, _, assembled⟩ := compiled.assembled
  obtain ⟨station, found, stationed⟩ := (Layout.layStations_stations compiled.surveyed).stationed item
  obtain ⟨link, _, linked, _⟩ := compiled.surveyed.exists_linkCapacity item member
  have needs := Survey.line?_eq_some.mpr ⟨linked, rfl, room⟩
  obtain ⟨ports, amongPorts, among⟩ := List.mem_flatten.mp member
  obtain ⟨feeds, _, leads⟩ := exists_of_mem_left stationed.feeds amongPorts
  obtain ⟨feed, _, _, _, lane⟩ := exists_of_mem_left leads among
  rw [needs] at lane
  refine assembled.storable (wire.type, survey.lineCapacity position wire) (List.mem_flatMap.mpr ⟨station, ?_, ?_⟩)
  · rw [assembled.stations]
    exact List.mem_of_getElem? found
  · exact List.mem_append_left _ (List.mem_map.mpr ⟨_, lane, rfl⟩)

theorem line_storable {type : PortType} {delay : Nat} (line : patch.Line type delay) :
    type.Storable options delay := by
  have surveyed := compiled.surveyed
  have output : ∀ {id index port}, patch.OutputAt id index port → ∃ (position : Nat) (place : Placed ν),
      placed[position]? = some place ∧ place.id = id ∧
        port.type.Storable options (survey.delayCapacity position) := by
    rintro id index port ⟨node, present, atPort⟩
    obtain ⟨position, item⟩ := surveyed.placement.exists_position present
    exact ⟨position, _, item, rfl, compiled.output_storable item (List.mem_of_getElem? atPort)⟩
  -- Each kind of line is as long as a capacity of the survey, and the plan has storage for that.
  cases line with
  | idle atPort idle =>
    obtain ⟨position, place, item, rfl, storable⟩ := output atPort
    rwa [surveyed.delayCapacity_idle item idle] at storable
  | waiting atPort earliest =>
    obtain ⟨position, place, item, rfl, storable⟩ := output atPort
    obtain ⟨consumer, feeds, _⟩ := earliest.1
    rwa [← earliest.unique (surveyed.delayCapacity_earliest item feeds)] at storable
  | @branch edge _ _ branches =>
    obtain ⟨⟨id, found⟩, ⟨port, atPort, rfl⟩, _⟩ := id branches
    rcases Nat.eq_zero_or_pos delay with rfl | positive
    · obtain ⟨_, _, _, _, storable⟩ := output atPort
      exact storable.undelayed
    · have fits := surveyed.fits id edge found
      obtain ⟨_, _, _, ⟨node, present, _⟩, _⟩ := surveyed.fits id edge found
      obtain ⟨position, item⟩ := surveyed.placement.exists_position present
      obtain ⟨wire, member, carries⟩ := surveyed.wired.exists_wire item found fits surveyed.placement rfl
      obtain rfl := surveyed.lineCapacity_eq item rfl carries branches
      obtain ⟨spec, atPort', type⟩ := carries.type
      rw [atPort.unique atPort', type]
      exact compiled.wire_storable item member positive

/-- What has a plan is of representable size. -/
theorem representable : patch.Representable options where
  latencies _ _ _ path := compiled.surveyed.accumulates_lt path
  lines _ _ line _ := compiled.line_storable line
  inputs := by
    rintro id index port ⟨node, present, atPort⟩ channels type
    obtain ⟨_, _, _, _, _, assembled⟩ := compiled.assembled
    obtain ⟨position, item⟩ := compiled.surveyed.placement.exists_position present
    have below := Layout.inputSamples_le_largestInput assembled.largest port
      (List.mem_flatMap.mpr ⟨_, List.mem_of_getElem? item, List.mem_of_getElem? atPort⟩)
    rw [Layout.inputSamples, type] at below
    exact Nat.lt_of_le_of_lt below (Layout.largestInput_lt assembled.largest)

end CompiledFrom

/-- A patch has a plan exactly if it is well formed and of representable size. -/
theorem compile_eq_ok_iff : (∃ plan, compile patch options = .ok (.ok plan)) ↔
    patch.WellFormed options ∧ patch.Representable options := by
  constructor
  · rintro ⟨plan, answer⟩
    obtain ⟨placed, survey, compiled⟩ := compile_plan answer
    exact ⟨compiled.wellFormed, compiled.representable⟩
  · rintro ⟨wellFormed, representable⟩
    exact compile_ok representable wellFormed

theorem Patch.WellFormed.not_refused (wellFormed : patch.WellFormed options) (error : CompileError) :
    compile patch options ≠ .ok (.error error) := by
  intro answer
  unfold compile at answer
  rcases patch.check_cases options with ⟨order, checked, ordered, checks⟩ | ⟨_, _, _, fails⟩
  · have placement := Placement.ofOrder ordered
    simp only [checked, bind_eq_ok] at answer
    obtain ⟨survey, made, answer⟩ := answer
    have surveyed := Survey.ofPlaced_surveyed placement checks.fits made
    rcases selectSink_cases options placement with ⟨_, _, _, _, chosen, _, _⟩ | ⟨_, _, _, noSink⟩
    · have within : ¬ options.maxCompensation < survey.bound := fun exceeds =>
        Nat.not_lt.mpr (wellFormed.delays _ (surveyed.demands_bound (Nat.zero_lt_of_lt exceeds))) exceeds
      simp [chosen, if_neg within] at answer
    · exact absurd wellFormed.sink noSink
  · exact absurd ⟨wellFormed.blockSize, wellFormed.inhabited, wellFormed.edges, wellFormed.acyclic⟩ fails

end

end Patchbay
