import Mathlib.Order.Bounds.Basic
import Patchbay.Proofs.Mixer.Routing

/-! Which bus the check of a mixer names where buses feed each other in a loop.

A loop is reported just in the mixers in which, taken one by one, all outputs and sends
are right. The bus that is named is the first one without a place, in the order in
which they were added. It may be one that the loop leads to and that is not on the
loop itself.
-/

set_option autoImplicit false

namespace Patchbay

open Relation

namespace Mixer

variable {mixer : Mixer}

/-! ## What each check reports -/

theorem checkTargets_error {source : MixerNode} {strip : MixerStrip} {error : RoutingError}
    (refused : mixer.checkTargets source strip = .error error) :
    ∃ bus, error = .missingOutputTarget source bus ∨ error = .missingSendTarget source bus := by
  have sends : ∀ error, (forIn strip.sends () fun send _ =>
      if mixer.hasBus send.bus = true then pure (ForInStep.yield ())
      else do
        throw (RoutingError.missingSendTarget source send.bus)
        pure (ForInStep.yield ()) : Except RoutingError Unit) = .error error →
      ∃ bus, error = .missingOutputTarget source bus ∨ error = .missingSendTarget source bus := by
    intro error failed
    obtain ⟨send, _, _, rfl⟩ := forIn_unless_eq_error failed
    exact ⟨send.bus, .inr rfl⟩
  -- The sends are checked only if the output passes.
  unfold checkTargets at refused
  cases output : strip.output with
  | master => exact sends error (by simpa [output] using refused)
  | bus id =>
    by_cases present : mixer.hasBus id = true
    · exact sends error (by simpa [output, present] using refused)
    · rw [output] at refused
      simp only [present] at refused
      cases refused
      exact ⟨id, .inl rfl⟩

theorem checkTargets_ne_busCycle {source : MixerNode} {strip : MixerStrip} {id : BusId} :
    mixer.checkTargets source strip ≠ .error (.busCycle id) := by
  intro refused
  obtain ⟨bus, missing | missing⟩ := checkTargets_error refused
  · cases missing
  · cases missing

theorem checkBus_ne_busCycle {source : BusId} {bus : Bus} {id : BusId} :
    mixer.checkBus source bus ≠ .error (.busCycle id) := by
  unfold checkBus
  by_cases route : bus.output = .bus source
  · simp [route, throw_bind]
  by_cases send : bus.sends.any (·.bus = source) = true
  · simp [route, send, throw_bind]
  · simp [route, send, checkTargets_ne_busCycle]

theorem validate_eq_busCycle {id : BusId} : mixer.validate = .error (.busCycle id) ↔
    mixer.Wired ∧ ∃ bus, mixer.busOrder.2.head?.bind (mixer.buses[·]?) = some (id, bus) := by
  rw [wired_iff]
  unfold validate
  simp only [bind_eq_error]
  constructor
  · rintro (failed | ⟨_, tracks, failed | ⟨_, buses, last⟩⟩)
    · obtain ⟨_, _, refused⟩ := forM_eq_error failed
      exact absurd refused checkTargets_ne_busCycle
    · obtain ⟨_, _, refused⟩ := forM_eq_error failed
      exact absurd refused checkBus_ne_busCycle
    · exact ⟨⟨fun entry member => checkTargets_eq_ok.mp (forM_eq_ok.mp tracks entry member),
        fun entry member => checkBus_eq_ok.mp (forM_eq_ok.mp buses entry member)⟩, checkOrder_eq_error.mp last⟩
  · rintro ⟨⟨tracks, buses⟩, last⟩
    exact .inr ⟨(), forM_eq_ok.mpr fun entry member => checkTargets_eq_ok.mpr (tracks entry member),
      .inr ⟨(), forM_eq_ok.mpr fun entry member => checkBus_eq_ok.mpr (buses entry member),
        checkOrder_eq_error.mpr last⟩⟩

/-! ## The first bus without a place -/

theorem Built.ascending (built : mixer.Built) : mixer.buses.Pairwise (·.1.index < ·.1.index) := by
  induction built with
  | empty => exact .nil
  | addTrack _ _ ih | setVolume _ _ ih | editTrack _ _ _ ih => exact ih
  | addBus bus built ih =>
    apply List.pairwise_append.mpr ⟨ih, List.pairwise_singleton _ _, _⟩
    intro entry member added last
    rw [List.mem_singleton.mp last]
    exact built.numbered.buses.below _ (List.mem_map_of_mem member)
  | removeBus id _ ih => exact ih.filter _
  | editBus id change _ ih => exact List.pairwise_map.mpr ih

theorem Wired.present_of_behind (wired : mixer.Wired) {id : BusId} (behind : OnOrBehindLoop mixer.Passes id) :
    mixer.Has (.bus id) := by
  obtain ⟨source, passes, _⟩ := (onOrBehindLoop_iff.mp behind).fed
  exact wired.present _ id passes.2

theorem Wired.behind_of_cycle (wired : mixer.Wired) {id : BusId} (cycle : TransGen mixer.Passes id id) :
    OnOrBehindLoop mixer.Passes id := by
  apply onOrBehindLoop_iff.mpr ⟨id, TransGen.mono _ _ _ cycle, .refl⟩
  intro source dest passes
  refine ⟨?_, passes⟩
  rintro rfl
  exact wired.apart source passes

theorem mem_stuck_of_behind (numbered : mixer.Numbered) (wired : mixer.Wired) {id : BusId}
    (behind : OnOrBehindLoop mixer.Passes id) :
    ∃ position ∈ mixer.busOrder.2, ∃ bus, mixer.buses[position]? = some (id, bus) := by
  obtain ⟨bus, member⟩ := wired.present_of_behind behind
  obtain ⟨position, found⟩ := List.mem_iff_getElem?.mp member
  exact ⟨position, (mem_stuck_iff numbered).mpr ⟨_, found, behind⟩, bus, found⟩

theorem stuck_pairwise : mixer.busOrder.2.Pairwise (· < ·) :=
  List.pairwise_lt_range.sublist List.filter_sublist

/-- The bus without a place that was added first has the lowest id of all that are on a
loop or behind one. -/
theorem stuck_head_least (built : mixer.Built) (wired : mixer.Wired) {id : BusId} {bus : Bus}
    (first : mixer.busOrder.2.head?.bind (mixer.buses[·]?) = some (id, bus)) :
    IsLeast {index | OnOrBehindLoop mixer.Passes ⟨index⟩} id.index := by
  obtain ⟨position, head, found⟩ := Option.bind_eq_some_iff.mp first
  have member := List.mem_of_head? head
  constructor
  · obtain ⟨entry, found', behind⟩ := (mem_stuck_iff built.numbered).mp member
    cases found.symm.trans found'
    exact behind
  · intro index behind
    obtain ⟨later, stuck, other, found'⟩ := mem_stuck_of_behind built.numbered wired behind
    -- Buses stand in the order of their ids, so the first that is left over is the least.
    have ahead : position ≤ later := by
      obtain ⟨rest, split⟩ := List.head?_eq_some_iff.mp head
      rw [split] at stuck
      rcases List.mem_cons.mp stuck with rfl | behind
      · exact le_refl _
      · exact (List.rel_of_pairwise_cons (split ▸ stuck_pairwise) behind).le
    rcases ahead.eq_or_lt with rfl | sooner
    · cases found.symm.trans found'
      exact le_refl _
    · obtain ⟨inside, here⟩ := List.getElem?_eq_some_iff.mp found
      obtain ⟨within, there⟩ := List.getElem?_eq_some_iff.mp found'
      have ascends := List.pairwise_iff_getElem.mp built.ascending position later inside within sooner
      rw [here, there] at ascends
      exact ascends.le

theorem validate_names_least (built : mixer.Built) {id : BusId} : mixer.validate = .error (.busCycle id) ↔
    mixer.Wired ∧ IsLeast {index | OnOrBehindLoop mixer.Passes ⟨index⟩} id.index := by
  rw [validate_eq_busCycle]
  refine and_congr_right fun wired => ?_
  constructor
  · rintro ⟨bus, first⟩
    exact stuck_head_least built wired first
  · intro least
    -- Something has no place, and what is first of it is the lowest as well.
    obtain ⟨position, stuck, _⟩ := mem_stuck_of_behind built.numbered wired least.1
    obtain ⟨⟨other, bus⟩, first⟩ : ∃ entry, mixer.busOrder.2.head?.bind (mixer.buses[·]?) = some entry := by
      apply Option.ne_none_iff_exists'.mp
      rw [Ne, stuck_head]
      exact List.ne_nil_of_mem stuck
    have same := (stuck_head_least built wired first).unique least
    obtain rfl : other = id := by
      cases other
      cases id
      exact congrArg BusId.mk same
    exact ⟨bus, first⟩

/-- A loop is reported in each mixer that has one and is right otherwise, and named is
the lowest of the buses on a loop or behind one. This bus leads back to itself just if
none of those was added before all buses that do. -/
theorem busCycle_exact (built : mixer.Built) (id : BusId) :
    (mixer.validate = .error (.busCycle id) ↔
      mixer.Wired ∧ IsLeast {index | OnOrBehindLoop mixer.Passes ⟨index⟩} id.index) ∧
    (mixer.validate = .error (.busCycle id) → (TransGen mixer.Passes id id ↔
      ∀ index, OnOrBehindLoop mixer.Passes ⟨index⟩ → ∃ sooner ≤ index, TransGen mixer.Passes ⟨sooner⟩ ⟨sooner⟩)) := by
  refine ⟨validate_names_least built, ?_⟩
  intro refused
  obtain ⟨wired, behind, least⟩ := (validate_names_least built).mp refused
  constructor
  · intro cycle index other
    exact ⟨id.index, least other, cycle⟩
  · intro sooner
    obtain ⟨index, below, cycle⟩ := sooner id.index behind
    have same : index = id.index := le_antisymm below (least (wired.behind_of_cycle cycle))
    rwa [same] at cycle

def trailing : Mixer :=
  (Mixer.empty 2).addBus { name := "group" } |>.2
    |>.addBus { name := "echo", output := .bus ⟨2⟩, sends := [⟨⟨0⟩, 1, false⟩] } |>.2
    |>.addBus { name := "chorus", output := .bus ⟨1⟩ } |>.2

theorem trailing_built : trailing.Built := .addBus _ (.addBus _ (.addBus _ (.empty 2)))

theorem trailing_refused : trailing.validate = .error (.busCycle ⟨0⟩) := by decide +kernel

theorem trailing_named : trailing.Built ∧ trailing.validate = .error (.busCycle ⟨0⟩) ∧
    (trailing.Wired ∧ IsLeast {index | OnOrBehindLoop trailing.Passes ⟨index⟩} 0) ∧
    (TransGen trailing.Passes ⟨0⟩ ⟨0⟩ ↔ ∀ index, OnOrBehindLoop trailing.Passes ⟨index⟩ →
      ∃ sooner ≤ index, TransGen trailing.Passes ⟨sooner⟩ ⟨sooner⟩) := by
  obtain ⟨names, culprit⟩ := busCycle_exact trailing_built ⟨0⟩
  exact ⟨trailing_built, trailing_refused, names.mp trailing_refused, culprit trailing_refused⟩

/-- The bus that is named there feeds no bus at all. -/
theorem trailing_innocent : trailing.Built ∧ trailing.validate = .error (.busCycle ⟨0⟩) ∧
    ¬ TransGen trailing.Passes ⟨0⟩ ⟨0⟩ := by
  refine ⟨trailing_built, trailing_refused, ?_⟩
  intro cycle
  obtain ⟨next, passes, _⟩ := TransGen.head'_iff.mp cycle
  obtain ⟨entry, member, here, target⟩ := passes_iff.mp passes
  have idle : ∀ entry ∈ trailing.buses, ⟨0⟩ = entry.1 → entry.2.targets = [] := by decide +kernel
  rw [idle entry member here] at target
  cases target

end Mixer

end Patchbay
