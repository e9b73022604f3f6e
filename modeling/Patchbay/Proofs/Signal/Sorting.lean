import Mathlib.Data.List.Perm.Basic
import Patchbay.Signal.Event

/-! Events ordered by frame.

An ordering by frame that keeps the order inside each frame is fully determined, so
the insertion sort of event lists agrees with every other stable sort, and a list in
order is left as it is.
-/

set_option autoImplicit false

namespace Patchbay

/-! ## Order under a key -/

/-- The same items under every key, in the same order. -/
def SameBy {α κ : Type} [DecidableEq κ] (key : α → κ) (first second : List α) : Prop :=
  ∀ wanted, first.filter (key · = wanted) = second.filter (key · = wanted)

namespace SameBy

variable {α β κ τ : Type} [DecidableEq κ] [DecidableEq τ] {key : α → κ} {first second third : List α}

theorem of_eq (same : first = second) : SameBy key first second := fun _ => same ▸ rfl

theorem symm (same : SameBy key first second) : SameBy key second first := fun wanted => (same wanted).symm

theorem trans (same : SameBy key first second) (again : SameBy key second third) : SameBy key first third :=
  fun wanted => (same wanted).trans (again wanted)

theorem append {fourth : List α} (same : SameBy key first second) (again : SameBy key third fourth) :
    SameBy key (first ++ third) (second ++ fourth) := by
  intro wanted
  rw [List.filter_append, List.filter_append, same wanted, again wanted]

theorem exchange {one two : α} (apart : key one ≠ key two) (front behind : List α) :
    SameBy key (front ++ two :: one :: behind) (front ++ one :: two :: behind) := by
  refine append (.of_eq rfl) fun wanted => ?_
  by_cases hit : key one = wanted
  · have miss : key two ≠ wanted := fun same => apart (hit.trans same.symm)
    simp [hit, miss]
  · simp [hit, List.filter_cons]

theorem filter (same : SameBy key first second) (keep : α → Bool) :
    SameBy key (first.filter keep) (second.filter keep) := by
  intro wanted
  rw [List.filter_comm, List.filter_comm (l := second), same wanted]

theorem perm (same : SameBy key first second) : first.Perm second := by
  classical
  refine List.perm_iff_count.mpr fun item => ?_
  have counted := congrArg (List.count item) (same (key item))
  rwa [List.count_filter (by simp), List.count_filter (by simp)] at counted

theorem map (same : SameBy key first second) (f : α → β) {other : β → τ}
    (faithful : ∀ one ∈ first, ∀ two ∈ first, other (f one) = other (f two) ↔ key one = key two) :
    SameBy other (first.map f) (second.map f) := by
  intro wanted
  rw [List.filter_map, List.filter_map]
  congr 1
  by_cases hit : ∃ one ∈ first, other (f one) = wanted
  · obtain ⟨one, among, rfl⟩ := hit
    have kept : ∀ items : List α, (∀ item ∈ items, item ∈ first) →
        items.filter ((other · = other (f one)) ∘ f) = items.filter (key · = key one) :=
      fun items within => List.filter_congr fun item member =>
        decide_eq_decide.mpr (faithful item (within item member) one among)
    rw [kept first fun _ => id, kept second fun _ => same.perm.mem_iff.mpr, same]
  · have none : ∀ items : List α, (∀ item ∈ items, item ∈ first) →
        items.filter ((other · = wanted) ∘ f) = [] :=
      fun items within => List.filter_eq_nil_iff.mpr fun item member found =>
        hit ⟨item, within item member, of_decide_eq_true found⟩
    rw [none first fun _ => id, none second fun _ => same.perm.mem_iff.mpr]

end SameBy

/-! ## Events in order -/

variable {Body : Type} {first second events : List (Event Body)}

def Event.InOrder (events : List (Event Body)) : Prop := events.Pairwise (·.frame ≤ ·.frame)

namespace Event

theorem sortedByFrame_iff (events : List (Event Body)) : sortedByFrame events = true ↔ InOrder events := by
  induction events with
  | nil => exact iff_of_true rfl .nil
  | cons one rest ih =>
    cases rest with
    | nil => exact iff_of_true rfl (List.pairwise_singleton _ _)
    | cons two later =>
      rw [sortedByFrame, Bool.and_eq_true, decide_eq_true_eq, ih]
      constructor
      · rintro ⟨sooner, ordered⟩
        refine List.pairwise_cons.mpr ⟨fun event member => ?_, ordered⟩
        rcases List.mem_cons.mp member with rfl | among
        · exact sooner
        · exact UInt32.le_trans sooner ((List.pairwise_cons.mp ordered).1 event among)
      · intro ordered
        obtain ⟨sooner, ordered⟩ := List.pairwise_cons.mp ordered
        exact ⟨sooner two List.mem_cons_self, ordered⟩

theorem insertByFrame_same (event : Event Body) {sorted : List (Event Body)} (ordered : InOrder sorted) :
    SameBy Event.frame (event.insertByFrame sorted) (sorted ++ [event]) := by
  induction sorted with
  | nil => exact .of_eq rfl
  | cons first rest ih =>
    obtain ⟨later, ordered⟩ := List.pairwise_cons.mp ordered
    unfold insertByFrame
    split
    · rename_i sooner
      intro wanted
      rw [List.filter_cons, List.filter_append, List.filter_singleton]
      by_cases here : event.frame = wanted
      · have none : (first :: rest).filter (·.frame = wanted) = [] := by
          rw [List.filter_eq_nil_iff, ← here]
          intro item member
          have behind : first.frame ≤ item.frame := by
            rcases List.mem_cons.mp member with rfl | among
            · exact UInt32.le_refl _
            · exact later item among
          rw [decide_eq_true_eq]
          rintro same
          rw [same] at behind
          exact absurd (UInt32.lt_of_lt_of_le sooner behind) (UInt32.lt_irrefl _)
        simp [here, none]
      · simp [here]
    · change SameBy Event.frame ([first] ++ event.insertByFrame rest) ([first] ++ (rest ++ [event]))
      exact SameBy.append (.of_eq rfl) (ih ordered)

theorem insertByFrame_inOrder (event : Event Body) {sorted : List (Event Body)} (ordered : InOrder sorted) :
    InOrder (event.insertByFrame sorted) := by
  induction sorted with
  | nil => exact List.pairwise_singleton _ _
  | cons first rest ih =>
    obtain ⟨later, rest_⟩ := List.pairwise_cons.mp ordered
    unfold insertByFrame
    split
    · rename_i sooner
      refine List.pairwise_cons.mpr ⟨fun item member => ?_, ordered⟩
      rcases List.mem_cons.mp member with rfl | among
      · exact UInt32.le_of_lt sooner
      · exact UInt32.le_of_lt (UInt32.lt_of_lt_of_le sooner (later item among))
    · rename_i notSooner
      refine List.pairwise_cons.mpr ⟨fun item member => ?_, ih rest_⟩
      rcases List.mem_append.mp ((insertByFrame_same event rest_).perm.mem_iff.mp member) with among | same
      · exact later item among
      · rw [List.mem_singleton.mp same]
        exact UInt32.not_lt.mp notSooner

/-- The sort keeps the order of the events of each frame. -/
theorem sortByFrame_same (events : List (Event Body)) : SameBy Event.frame (sortByFrame events) events := by
  suffices every : ∀ sorted : List (Event Body), InOrder sorted →
      SameBy Event.frame (events.foldl (fun sorted event => event.insertByFrame sorted) sorted)
        (sorted ++ events) from every [] .nil
  induction events with
  | nil => exact fun sorted _ => .of_eq (List.append_nil sorted).symm
  | cons event rest ih =>
    intro sorted ordered
    rw [List.foldl_cons, List.append_cons]
    exact (ih _ (insertByFrame_inOrder event ordered)).trans
      ((insertByFrame_same event ordered).append (.of_eq rfl))

theorem sortByFrame_inOrder (events : List (Event Body)) : InOrder (sortByFrame events) := by
  suffices every : ∀ sorted : List (Event Body), InOrder sorted →
      InOrder (events.foldl (fun sorted event => event.insertByFrame sorted) sorted) from every [] .nil
  induction events with
  | nil => exact fun _ ordered => ordered
  | cons event rest ih => exact fun _ ordered => ih _ (insertByFrame_inOrder event ordered)

/-- Lists in order are the same if they have the same events of each frame in the same order. -/
theorem InOrder.eq_of_same (ordered : InOrder first) (ordered' : InOrder second)
    (same : SameBy Event.frame first second) : first = second := by
  induction first generalizing second with
  | nil => exact (List.nil_perm.mp same.perm).symm
  | cons one rest ih =>
    cases second with
    | nil => exact absurd same.perm (List.cons_ne_nil _ _ ∘ List.perm_nil.mp)
    | cons two others =>
      obtain ⟨behind, later⟩ := List.pairwise_cons.mp ordered
      obtain ⟨behind', later'⟩ := List.pairwise_cons.mp ordered'
      -- The first events of both lists are the earliest ones, so they have one frame.
      have tie : two.frame = one.frame := by
        refine UInt32.le_antisymm ?_ ?_
        · rcases List.mem_cons.mp (same.perm.mem_iff.mp List.mem_cons_self) with rfl | among
          · exact UInt32.le_refl _
          · exact behind' one among
        · rcases List.mem_cons.mp (same.perm.mem_iff.mpr List.mem_cons_self) with rfl | among
          · exact UInt32.le_refl _
          · exact behind two among
      have leads := same one.frame
      rw [List.filter_cons_of_pos (by simp), List.filter_cons_of_pos (by simp [tie])] at leads
      obtain ⟨rfl, _⟩ := List.cons_eq_cons.mp leads
      refine congrArg (one :: ·) (ih later later' fun wanted => ?_)
      have here := same wanted
      by_cases hit : one.frame = wanted
      · rw [List.filter_cons_of_pos (by simp [hit]), List.filter_cons_of_pos (by simp [hit])] at here
        exact (List.cons_eq_cons.mp here).2
      · rwa [List.filter_cons_of_neg (by simp [hit]), List.filter_cons_of_neg (by simp [hit])] at here

theorem InOrder.sortByFrame_eq (ordered : InOrder events) : sortByFrame events = events :=
  (sortByFrame_inOrder events).eq_of_same ordered (sortByFrame_same events)

def noLater (one two : Event Body) : Bool := one.frame ≤ two.frame

theorem noLater_trans (one two three : Event Body) (first : one.noLater two = true)
    (second : two.noLater three = true) : one.noLater three = true :=
  decide_eq_true (UInt32.le_trans (of_decide_eq_true first) (of_decide_eq_true second))

theorem noLater_total (one two : Event Body) : (one.noLater two || two.noLater one) = true := by
  unfold noLater
  rw [Bool.or_eq_true, decide_eq_true_eq, decide_eq_true_eq]
  exact UInt32.le_total _ _

/-- The sort is the library's stable sort. -/
theorem sortByFrame_eq_mergeSort (events : List (Event Body)) :
    sortByFrame events = events.mergeSort noLater := by
  refine (sortByFrame_inOrder events).eq_of_same ?_ ((sortByFrame_same events).trans fun frame => ?_)
  · exact (List.pairwise_mergeSort noLater_trans noLater_total events).imp of_decide_eq_true
  · -- The events of one frame are in order already, so they keep their order.
    have level : (events.filter (·.frame = frame)).Pairwise (noLater · · = true) := by
      refine List.pairwise_of_forall_mem_list fun one here two there => ?_
      rw [noLater, decide_eq_true_eq, of_decide_eq_true (List.mem_filter.mp here).2,
        of_decide_eq_true (List.mem_filter.mp there).2]
      exact UInt32.le_refl _
    have among := (List.sublist_mergeSort noLater_trans noLater_total level List.filter_sublist).filter (·.frame = frame)
    rw [List.filter_filter] at among
    simp only [Bool.and_self] at among
    exact among.eq_of_length ((List.mergeSort_perm events noLater).symm.filter _).length_eq

end Event

theorem EventList.sort_same (list : EventList Body) : SameBy Event.frame list.sort.events list.events :=
  Event.sortByFrame_same list.events

theorem EventList.isSorted_iff (list : EventList Body) : list.isSorted = true ↔ Event.InOrder list.events :=
  Event.sortedByFrame_iff list.events

theorem EventList.isSorted_sort (list : EventList Body) : list.sort.isSorted = true :=
  list.sort.isSorted_iff.mpr (Event.sortByFrame_inOrder list.events)

end Patchbay
