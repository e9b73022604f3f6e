import Patchbay.Proofs.Mixer.Order

/-! Sweeping over the buses until a sweep places none.

Every sweep adds to what is placed, and there are no more buses to place than there are,
so the sweeping ends within as many sweeps as there are buses. It ends where each bus
that is not placed waits for another one that is not.
-/

set_option autoImplicit false

namespace Patchbay

namespace BusOrder

variable {feeders : Nat → List Nat} {count : Nat} {placed last : List Nat}

def visit (feeders : Nat → List Nat) (placed : List Nat) (bus : Nat) : List Nat :=
  if !placed.contains bus && (feeders bus).all placed.contains then placed ++ [bus] else placed

theorem sweep_eq (feeders : Nat → List Nat) (count : Nat) (placed : List Nat) :
    sweep feeders count placed = (List.range count).foldl (visit feeders) placed := rfl

/-- The sweeping comes to an end: the last sweep, and none before it, places nothing. -/
inductive SweepsTo (feeders : Nat → List Nat) (count : Nat) : List Nat → List Nat → Prop where
  | still {placed : List Nat} : sweep feeders count placed = placed → SweepsTo feeders count placed placed
  | again {placed last : List Nat} : sweep feeders count placed ≠ placed →
      SweepsTo feeders count (sweep feeders count placed) last → SweepsTo feeders count placed last

structure Places (count : Nat) (placed : List Nat) : Prop where
  nodup : placed.Nodup
  below : ∀ bus ∈ placed, bus < count

theorem Places.nil : Places count [] := ⟨.nil, nofun⟩

theorem Places.length_le (places : Places count placed) : placed.length ≤ count := by
  have inside : placed ⊆ List.range count := fun bus member => List.mem_range.mpr (places.below bus member)
  simpa using (places.nodup.subperm inside).length_le

/-! ## One bus -/

theorem visit_extends (bus : Nat) : placed <+: visit feeders placed bus := by
  unfold visit
  split
  · exact List.prefix_append _ _
  · exact List.prefix_refl _

theorem places_visit (places : Places count placed) {bus : Nat} (inside : bus < count) :
    Places count (visit feeders placed bus) := by
  unfold visit
  split
  · rename_i isReady
    have absent : bus ∉ placed := by simp_all
    refine ⟨?_, ?_⟩
    · simpa using places.nodup.concat absent
    · intro other member
      rcases List.mem_append.mp member with before | here
      · exact places.below other before
      · rwa [List.mem_singleton.mp here]
  · exact places

/-- A bus that is not placed when its turn comes waits for one that is not placed. -/
theorem waits_of_visit {bus : Nat} (still : visit feeders placed bus = placed) (absent : bus ∉ placed) :
    ∃ feeder ∈ feeders bus, feeder ∉ placed := by
  unfold visit at still
  split at still
  · simp at still
  · simp_all

theorem visit_congr {others : Nat → List Nat} {bus : Nat} (same : others bus = feeders bus) :
    visit others placed bus = visit feeders placed bus := by
  rw [visit, visit, same]

/-! ## One sweep -/

theorem foldl_visit_extends (buses : List Nat) : placed <+: buses.foldl (visit feeders) placed := by
  induction buses generalizing placed with
  | nil => exact List.prefix_refl _
  | cons bus rest ih => exact (visit_extends bus).trans ih

theorem sweep_extends : placed <+: sweep feeders count placed := foldl_visit_extends _

theorem places_sweep (places : Places count placed) : Places count (sweep feeders count placed) := by
  rw [sweep_eq]
  have inside : ∀ bus ∈ List.range count, bus < count := fun bus => List.mem_range.mp
  generalize List.range count = buses at inside
  induction buses generalizing placed with
  | nil => exact places
  | cons bus rest ih =>
    rw [List.forall_mem_cons] at inside
    exact ih (places_visit places inside.1) inside.2

theorem foldl_visit_still {buses : List Nat} (still : buses.foldl (visit feeders) placed = placed) :
    ∀ bus ∈ buses, visit feeders placed bus = placed := by
  induction buses with
  | nil => simp
  | cons bus rest ih =>
    rw [List.foldl_cons] at still
    -- What a visit adds, the rest of the sweep would not take back.
    have here : visit feeders placed bus = placed := by
      have more : visit feeders placed bus <+: rest.foldl (visit feeders) (visit feeders placed bus) :=
        foldl_visit_extends rest
      rw [still] at more
      exact more.eq_of_length_le (visit_extends bus).length_le
    rw [here] at still
    exact List.forall_mem_cons.mpr ⟨here, ih still⟩

theorem waits_of_sweep (still : sweep feeders count placed = placed) {bus : Nat} (inside : bus < count)
    (absent : bus ∉ placed) : ∃ feeder ∈ feeders bus, feeder ∉ placed :=
  waits_of_visit (foldl_visit_still still bus (List.mem_range.mpr inside)) absent

theorem sweep_congr {others : Nat → List Nat} (same : ∀ bus < count, others bus = feeders bus) :
    sweep others count placed = sweep feeders count placed := by
  rw [sweep_eq, sweep_eq]
  apply List.foldl_ext
  intro placed bus member
  exact visit_congr (same bus (List.mem_range.mp member))

/-! ## All sweeps -/

theorem sweeps_congr {others : Nat → List Nat} {rounds : Nat} (same : ∀ bus < count, others bus = feeders bus) :
    sweeps others count rounds placed = sweeps feeders count rounds placed := by
  induction rounds generalizing placed with
  | zero => rfl
  | succ rounds ih => rw [sweeps, sweeps, sweep_congr same, ih]

theorem places_sweeps {rounds : Nat} (places : Places count placed) :
    Places count (sweeps feeders count rounds placed) := by
  induction rounds generalizing placed with
  | zero => exact places
  | succ rounds ih => exact ih (places_sweep places)

theorem sweeps_still {rounds : Nat} (still : sweep feeders count placed = placed) :
    sweeps feeders count rounds placed = placed := by
  induction rounds with
  | zero => rfl
  | succ rounds ih => rw [sweeps, still, ih]

/-- As many sweeps as there are buses left to place are enough. -/
theorem sweepsTo_sweeps {rounds : Nat} (places : Places count placed) (enough : count ≤ placed.length + rounds) :
    SweepsTo feeders count placed (sweeps feeders count rounds placed) := by
  induction rounds generalizing placed with
  | zero =>
    apply SweepsTo.still
    exact (sweep_extends.eq_of_length_le ((places_sweep places).length_le.trans enough)).symm
  | succ rounds ih =>
    -- Where nothing is placed the sweeps left over change nothing; otherwise one bus less is left.
    by_cases still : sweep feeders count placed = placed
    · rw [sweeps_still still]
      exact .still still
    · apply SweepsTo.again still
      apply ih (places_sweep places)
      have longer : placed.length < (sweep feeders count placed).length := by
        by_contra short
        exact still (sweep_extends.eq_of_length_le (Nat.le_of_not_lt short)).symm
      omega

theorem SweepsTo.sweep_eq (sweepsTo : SweepsTo feeders count placed last) : sweep feeders count last = last := by
  induction sweepsTo with
  | still same => exact same
  | again _ _ ih => exact ih

end BusOrder

end Patchbay
