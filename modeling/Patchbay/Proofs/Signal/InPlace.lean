import Patchbay.Proofs.Signal.Sorting

/-! Sorting in place.

Events are sorted within their own storage by exchanges of neighbours: each event in turn
moves forward past later ones, until the event before it is no later. The exchanges come to
an end with every list, and they leave the events as the sort does.
-/

set_option autoImplicit false

namespace Patchbay

namespace Event

variable {Body : Type}

structure Sift (Body : Type) where
  events : Array (Event Body)
  /-- The place from which the moving event came. -/
  turn : Nat
  /-- The place that the moving event has reached. -/
  place : Nat
  place_le : place ≤ turn

namespace Sift

def start (events : Array (Event Body)) : Sift Body := ⟨events, 1, 1, Nat.le_refl 1⟩

def pass (sift : Sift Body) : Sift Body :=
  { sift with turn := sift.turn + 1, place := sift.turn + 1, place_le := Nat.le_refl _ }

/-- Lets the moving event change places with the one before it if that one is later, and
passes the turn on otherwise. No step is left when every event has had its turn. -/
def step (sift : Sift Body) : Option (Sift Body) :=
  if inside : sift.turn < sift.events.size then
    match reached : sift.place with
    | 0 => some sift.pass
    | before + 1 =>
        have bound : before + 1 < sift.events.size := by have := sift.place_le; omega
        if sift.events[before + 1].frame < sift.events[before].frame then
          some { sift with
            events := sift.events.swap before (before + 1)
            place := before
            place_le := by have := sift.place_le; omega }
        else some sift.pass
  else none

/-- The steps from a state come to an end, with the events in a given order. -/
inductive Ends : Sift Body → List (Event Body) → Prop where
  | done {sift : Sift Body} : sift.step = none → Ends sift sift.events.toList
  | next {sift next : Sift Body} {sorted : List (Event Body)} : sift.step = some next →
      Ends next sorted → Ends sift sorted

variable {sift next : Sift Body} {original sorted : List (Event Body)}

/-! ## One step -/

theorem step_eq_none : sift.step = none ↔ sift.events.size ≤ sift.turn := by
  unfold step
  split
  · rename_i inside
    refine iff_of_false ?_ (Nat.not_le.mpr inside)
    split
    · exact Option.some_ne_none _
    · dsimp only
      split <;> exact Option.some_ne_none _
  · rename_i outside
    exact iff_of_true rfl (Nat.not_lt.mp outside)

theorem lt_size_of_step (step : sift.step = some next) : sift.turn < sift.events.size := by
  by_contra outside
  rw [step_eq_none.mpr (Nat.not_lt.mp outside)] at step
  cases step

theorem exists_neighbours {events : Array (Event Body)} {place : Nat} (inside : place + 1 < events.size) :
    ∃ front behind, front.length = place ∧
      events.toList = front ++ events[place] :: events[place + 1] :: behind := by
  refine ⟨events.toList.take place, events.toList.drop (place + 2), ?_, ?_⟩
  · rw [List.length_take, Array.length_toList]
    omega
  · rw [← Array.getElem_toList, ← Array.getElem_toList, List.getElem_cons_drop, List.getElem_cons_drop,
      List.take_append_drop]

theorem toList_swap {events : Array (Event Body)} {front behind : List (Event Body)} {last moving : Event Body}
    (split : events.toList = front ++ last :: moving :: behind) (here : front.length < events.size)
    (there : front.length + 1 < events.size) :
    (events.swap front.length (front.length + 1) here there).toList = front ++ moving :: last :: behind := by
  obtain ⟨events⟩ := events
  cases split
  simp [Array.swap]

theorem step_cases (step : sift.step = some next) :
    (∃ front last moving behind, sift.events.toList = front ++ last :: moving :: behind ∧
      sift.place = front.length + 1 ∧ moving.frame < last.frame ∧
      next.events.toList = front ++ moving :: last :: behind ∧
      next.turn = sift.turn ∧ next.place = front.length) ∨
    (next = sift.pass ∧ ∀ front last moving behind, sift.events.toList = front ++ last :: moving :: behind →
      sift.place = front.length + 1 → last.frame ≤ moving.frame) := by
  unfold Sift.step at step
  split at step
  · have reach := sift.place_le
    split at step
    · cases step
      exact .inr ⟨rfl, fun front _ _ _ _ place => by omega⟩
    · rename_i before reached
      dsimp only at step
      obtain ⟨front, behind, rfl, split⟩ := exists_neighbours (show before + 1 < sift.events.size by omega)
      split at step
      · rename_i late
        cases step
        exact .inl ⟨front, _, _, behind, split, reached, late, toList_swap split _ _, rfl, rfl⟩
      · rename_i inTime
        cases step
        refine .inr ⟨rfl, fun front' last moving behind' split' place => ?_⟩
        obtain ⟨_, same⟩ := List.append_inj (split.symm.trans split') (by omega)
        cases same
        exact UInt32.not_lt.mp inTime
  · cases step

theorem step_decreases (step : sift.step = some next) :
    Prod.Lex (· < ·) (· < ·) (next.events.size - next.turn, next.place)
      (sift.events.size - sift.turn, sift.place) := by
  have inside := lt_size_of_step step
  rcases step_cases step with ⟨front, last, moving, behind, before, place, _, after, turn, reached⟩ | ⟨rfl, _⟩
  · have size : next.events.size = sift.events.size := by
      rw [← Array.length_toList, ← Array.length_toList, before, after]
      simp
    rw [size, turn, place, reached]
    exact .right _ (Nat.lt_succ_self _)
  · refine .left _ _ ?_
    change sift.events.size - (sift.turn + 1) < sift.events.size - sift.turn
    omega

theorem exists_ends (sift : Sift Body) : ∃ sorted, sift.Ends sorted := by
  cases step : sift.step with
  | none => exact ⟨_, .done step⟩
  | some next =>
    obtain ⟨sorted, ends⟩ := next.exists_ends
    exact ⟨sorted, .next step ends⟩
termination_by (sift.events.size - sift.turn, sift.place)
decreasing_by exact step_decreases step

/-! ## What the steps keep -/

/-- Where the moving event stands: behind those in front of it, before those that it has
passed and those whose turn has not come. -/
structure Stands (sift : Sift Body) (front : List (Event Body)) (moving : Event Body)
    (passed rest : List (Event Body)) : Prop where
  events : sift.events.toList = front ++ moving :: (passed ++ rest)
  place : sift.place = front.length
  turn : sift.turn = front.length + passed.length
  settled : InOrder (front ++ passed)
  later : ∀ event ∈ passed, moving.frame < event.frame

/-- The events of each frame are in their first order, and all but the moving one are in
order among those that had their turn. -/
structure Sound (original : List (Event Body)) (sift : Sift Body) : Prop where
  same : SameBy Event.frame sift.events.toList original
  sorted : (∃ front moving passed rest, sift.Stands front moving passed rest) ∨
    sift.events.size ≤ sift.turn ∧ InOrder sift.events.toList

theorem Stands.inside {front passed rest : List (Event Body)} {moving : Event Body}
    (stands : sift.Stands front moving passed rest) : sift.turn < sift.events.size := by
  rw [← Array.length_toList, stands.events, stands.turn]
  simp only [List.length_append, List.length_cons]
  omega

theorem sound_start (events : List (Event Body)) : (start events.toArray).Sound events := by
  refine ⟨.of_eq rfl, ?_⟩
  rcases events with _ | ⟨one, _ | ⟨two, rest⟩⟩
  · exact .inr ⟨Nat.zero_le 1, .nil⟩
  · exact .inr ⟨Nat.le_refl 1, List.pairwise_singleton _ _⟩
  · exact .inl ⟨[one], two, [], rest, rfl, rfl, rfl, List.pairwise_singleton _ _, fun _ none => by cases none⟩

section Stands

variable {front passed rest : List (Event Body)} {moving last : Event Body}

theorem Stands.exchange (stands : sift.Stands (front ++ [last]) moving passed rest) (late : moving.frame < last.frame)
    (after : next.events.toList = front ++ moving :: last :: (passed ++ rest))
    (turn : next.turn = sift.turn) (place : next.place = front.length) :
    next.Stands front moving (last :: passed) rest where
  events := after
  place := place
  turn := by
    rw [turn, stands.turn]
    simp only [List.length_append, List.length_cons, List.length_nil]
    omega
  settled := by simpa using stands.settled
  later := by
    intro event member
    rcases List.mem_cons.mp member with rfl | among
    · exact late
    · exact stands.later event among

theorem Stands.inOrder (stands : sift.Stands front moving passed rest)
    (inTime : ∀ ahead last, front = ahead ++ [last] → last.frame ≤ moving.frame) :
    InOrder (front ++ moving :: passed) := by
  obtain ⟨ordered, behind, across⟩ := List.pairwise_append.mp stands.settled
  -- The last event in front is the latest there, so it speaks for all of them.
  have inFront : ∀ event ∈ front, event.frame ≤ moving.frame := by
    intro event member
    rcases List.eq_nil_or_concat front with rfl | ⟨ahead, last, rfl⟩
    · cases member
    · have latest := inTime ahead last (List.concat_eq_append ..)
      rw [List.concat_eq_append] at ordered member
      rcases List.mem_append.mp member with earlier | same
      · have before := (List.pairwise_append.mp ordered).2.2 event earlier last List.mem_cons_self
        exact UInt32.le_trans before latest
      · rwa [List.mem_singleton.mp same]
  refine List.pairwise_append.mpr ⟨ordered, List.pairwise_cons.mpr ⟨?_, behind⟩, ?_⟩
  · exact fun event member => UInt32.le_of_lt (stands.later event member)
  · intro event member other among
    rcases List.mem_cons.mp among with rfl | among
    · exact inFront event member
    · exact across event member other among

theorem Stands.pass (stands : sift.Stands front moving passed rest) (ordered : InOrder (front ++ moving :: passed))
    (same : SameBy Event.frame sift.events.toList original) : sift.pass.Sound original := by
  refine ⟨same, ?_⟩
  have events : sift.pass.events.toList = (front ++ moving :: passed) ++ rest := by
    rw [List.append_assoc, List.cons_append]
    exact stands.events
  have turn : sift.pass.turn = (front ++ moving :: passed).length := by
    change sift.turn + 1 = _
    rw [stands.turn, List.length_append, List.length_cons]
    omega
  cases rest with
  | nil =>
    rw [List.append_nil] at events
    refine .inr ⟨Nat.le_of_eq ?_, events ▸ ordered⟩
    rw [← Array.length_toList, events, turn]
  | cons following later =>
    refine .inl ⟨front ++ moving :: passed, following, [], later, events, turn, turn, ?_, ?_⟩
    · rwa [List.append_nil]
    · exact fun _ none => by cases none

end Stands

theorem Sound.step (sound : sift.Sound original) (step : sift.step = some next) : next.Sound original := by
  have inside := lt_size_of_step step
  obtain ⟨front, moving, passed, rest, stands⟩ := sound.sorted.resolve_right fun done => by omega
  rcases step_cases step with
    ⟨ahead, last, moving', behind, before, place, late, after, turn, reached⟩ | ⟨rfl, inTime⟩
  · -- The place tells that the exchanged events are the moving one and the last in front of it.
    have split : (ahead ++ [last]) ++ moving' :: behind = front ++ moving :: (passed ++ rest) := by
      rw [← stands.events, before, List.append_assoc, List.singleton_append]
    have lengths : (ahead ++ [last]).length = front.length := by
      rw [List.length_append, ← stands.place, place, List.length_singleton]
    obtain ⟨rfl, same⟩ := List.append_inj split lengths
    cases same
    refine ⟨?_, .inl ⟨ahead, moving, last :: passed, rest, stands.exchange late after turn reached⟩⟩
    have apart : last.frame ≠ moving.frame := fun same => UInt32.lt_irrefl _ (same ▸ late)
    rw [after]
    exact (SameBy.exchange apart ahead _).trans (before ▸ sound.same)
  · refine stands.pass (stands.inOrder fun ahead last split => ?_) sound.same
    subst split
    refine inTime ahead last moving (passed ++ rest) ?_ ?_
    · rw [stands.events, List.append_assoc, List.singleton_append]
    · rw [stands.place, List.length_append, List.length_singleton]

theorem Sound.inOrder (sound : sift.Sound original) (stopped : sift.step = none) : InOrder sift.events.toList := by
  have outside := step_eq_none.mp stopped
  rcases sound.sorted with ⟨_, _, _, _, stands⟩ | ⟨_, ordered⟩
  · exact absurd stands.inside (Nat.not_lt.mpr outside)
  · exact ordered

/-- However the steps came to their end, they ended with what the sort answers. -/
theorem Ends.eq_sortByFrame (ends : sift.Ends sorted) (sound : sift.Sound original) :
    sorted = sortByFrame original := by
  induction ends with
  | done stopped =>
    exact (sound.inOrder stopped).eq_of_same (sortByFrame_inOrder original)
      (sound.same.trans (sortByFrame_same original).symm)
  | next step _ ih => exact ih (sound.step step)

end Sift

/-- Exchanges of neighbours come to an end with every list, and then they have sorted it:
the same events stand in order, those of each frame in their first order. What is in order
stays as it is, and every other stable sort answers the same. -/
theorem sortByFrame_stable (events : List (Event Body)) :
    (∀ sorted, (Sift.start events.toArray).Ends sorted ↔ sorted = sortByFrame events) ∧
      (sortByFrame events).Perm events ∧ InOrder (sortByFrame events) ∧
      SameBy Event.frame (sortByFrame events) events ∧
      (InOrder events → sortByFrame events = events) ∧
      ∀ sorted, InOrder sorted → SameBy Event.frame sorted events → sorted = sortByFrame events := by
  have same := sortByFrame_same events
  have sound := Sift.sound_start events
  refine ⟨fun sorted => ⟨fun ends => ends.eq_sortByFrame sound, ?_⟩, same.perm, sortByFrame_inOrder events, same,
    InOrder.sortByFrame_eq, ?_⟩
  · rintro rfl
    obtain ⟨sorted, ends⟩ := (Sift.start events.toArray).exists_ends
    rwa [← ends.eq_sortByFrame sound]
  · exact fun sorted ordered kept => ordered.eq_of_same (sortByFrame_inOrder events) (kept.trans same.symm)

end Event

end Patchbay
