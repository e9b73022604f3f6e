import Mathlib.Data.List.Induction
import Patchbay.Proofs.Delay.Queue

/-! Events on their way through a delay.

Blocks of one size follow one another, and what happens in one of them falls due a
fixed delay later. Which events come out in a block is said of the blocks' events
alone; the queue of a line that is long enough lets through just these.
-/

set_option autoImplicit false

namespace Patchbay

variable {Body : Type} {start size delay : Nat} {history : List (List (Event Body))}
  {events : List (Event Body)}

def dues (start size delay : Nat) (history : List (List (Event Body))) : List (Due Body) :=
  history.zipIdx.flatMap fun (events, index) => events.map (·.dueAfter (start + index * size) delay)

/-- The events that come out in a block. -/
def arriving (start size delay : Nat) (history : List (List (Event Body))) (index : Nat) :
    List (Event Body) :=
  ((dues start size delay history).filter fun due =>
    start + index * size ≤ due.time ∧ due.time < start + (index + 1) * size).map
      (EventQueue.stamp (start + index * size))

/-- What is still on its way once all blocks have gone by. -/
def underway (start size delay : Nat) (history : List (List (Event Body))) : List (Due Body) :=
  (dues start size delay history).filter (start + history.length * size ≤ ·.time)

def Inside (size : Nat) (history : List (List (Event Body))) : Prop :=
  ∀ events ∈ history, ∀ event ∈ events, event.frame.toNat < size

theorem dues_concat : dues start size delay (history ++ [events]) = dues start size delay history ++
    events.map (·.dueAfter (start + history.length * size) delay) := by
  simp [dues, List.zipIdx_append]

theorem mem_dues {due : Due Body} : due ∈ dues start size delay history ↔
    ∃ (index : Nat) (events : List (Event Body)), history[index]? = some events ∧
      ∃ event ∈ events, event.dueAfter (start + index * size) delay = due := by
  simp only [dues, List.mem_flatMap, Prod.exists, List.mem_zipIdx_iff_getElem?, List.mem_map]
  exact ⟨fun ⟨events, index, found, rest⟩ => ⟨index, events, found, rest⟩,
    fun ⟨index, events, found, rest⟩ => ⟨events, index, found, rest⟩⟩

/-! ## One block -/

theorem underway_concat : underway start size delay (history ++ [events]) =
    (underway start size delay history ++
      events.map (·.dueAfter (start + history.length * size) delay)).filter
        (start + history.length * size + size ≤ ·.time) := by
  unfold underway
  rw [dues_concat, List.filter_append, List.filter_append, List.filter_filter, List.length_append,
    List.length_singleton, Nat.succ_mul, ← Nat.add_assoc]
  congr 1
  refine List.filter_congr fun due _ => ?_
  rw [Bool.eq_iff_iff]
  simp only [Bool.and_eq_true, decide_eq_true_eq]
  omega

/-- What comes out in the newest block was on its way or has just gone in. -/
theorem arriving_newest : arriving start size delay (history ++ [events]) history.length =
    ((underway start size delay history ++
      events.map (·.dueAfter (start + history.length * size) delay)).filter
        (·.time < start + history.length * size + size)).map
          (EventQueue.stamp (start + history.length * size)) := by
  unfold arriving underway
  rw [dues_concat, List.filter_append, List.filter_append, List.filter_filter, Nat.succ_mul, ← Nat.add_assoc]
  congr 2
  · refine List.filter_congr fun due _ => ?_
    rw [Bool.eq_iff_iff]
    simp only [Bool.and_eq_true, decide_eq_true_eq]
    omega
  · refine List.filter_congr fun due member => ?_
    obtain ⟨event, _, rfl⟩ := List.mem_map.mp member
    rw [Bool.eq_iff_iff, decide_eq_true_eq, decide_eq_true_eq, Event.time_dueAfter]
    omega

theorem arriving_append {index : Nat} (more : List (List (Event Body))) (inside : index < history.length) :
    arriving start size delay (history ++ more) index = arriving start size delay history index := by
  induction more using List.reverseRecOn with
  | nil => rw [List.append_nil]
  | append_singleton more events ih =>
    rw [← List.append_assoc, ← ih]
    unfold arriving
    rw [dues_concat, List.filter_append, List.map_append]
    refine (List.append_right_eq_self).mpr ?_
    rw [List.map_eq_nil_iff, List.filter_eq_nil_iff]
    intro due member
    obtain ⟨event, _, rfl⟩ := List.mem_map.mp member
    have := Nat.mul_le_mul_right size (Nat.succ_le_of_lt (Nat.lt_of_lt_of_le inside
      (Nat.le_add_right history.length more.length)))
    rw [Nat.succ_eq_add_one] at this
    rw [decide_eq_true_eq, Event.time_dueAfter, List.length_append]
    omega

theorem arriving_starts {more : List (List (Event Body))} {index : Nat}
    (extends_ : history <+: more) (inside : index < history.length) :
    arriving start size delay more index = arriving start size delay history index := by
  obtain ⟨later, rfl⟩ := extends_
  exact arriving_append later inside

theorem frame_lt_of_mem_arriving {index : Nat} {event : Event Body}
    (member : event ∈ arriving start size delay history index) : event.frame.toNat < size := by
  obtain ⟨due, among, rfl⟩ := List.mem_map.mp member
  have timely := of_decide_eq_true (List.mem_filter.mp among).2
  rw [Nat.succ_mul] at timely
  simp only [EventQueue.stamp, Event.atFrame, UInt32.toNat_ofNat']
  have := Nat.mod_le (due.time - (start + index * size)) (2 ^ 32)
  omega

theorem underway_zero (inside : Inside size history) : underway start size 0 history = [] := by
  unfold underway
  rw [List.filter_eq_nil_iff]
  intro due member
  obtain ⟨index, events, found, event, among, rfl⟩ := mem_dues.mp member
  have early := inside events (List.mem_of_getElem? found) event among
  have := Nat.mul_le_mul_right size (Nat.succ_le_of_lt (List.getElem?_eq_some_iff.mp found).1)
  rw [Nat.succ_mul] at this
  rw [decide_eq_true_eq, Event.time_dueAfter]
  omega

theorem arriving_zero (inside : Inside size (history ++ [events])) :
    arriving start size 0 (history ++ [events]) history.length = events := by
  have here := inside events (by simp)
  rw [arriving_newest, underway_zero fun other member => inside other (List.mem_append_left _ member),
    List.nil_append, List.filter_eq_self.mpr, EventQueue.map_stamp_dueAfter_zero]
  intro due member
  obtain ⟨event, among, rfl⟩ := List.mem_map.mp member
  have := here event among
  rw [decide_eq_true_eq, Event.time_dueAfter]
  omega

/-! ## Room -/

theorem dues_sparse {most : Nat} (inside : Inside size history) (few : ∀ events ∈ history, events.length ≤ most) :
    Sparse most size (start + history.length * size + delay) (dues start size delay history) := by
  induction history using List.reverseRecOn with
  | nil => exact .nil
  | append_singleton history events ih =>
    have earlier := ih (fun other member => inside other (List.mem_append_left _ member))
      fun other member => few other (List.mem_append_left [events] member)
    have horizon : start + (history ++ [events]).length * size + delay =
        start + history.length * size + delay + size := by
      rw [List.length_append, List.length_singleton, Nat.succ_mul]
      omega
    rw [horizon, dues_concat]
    refine earlier.block (by simpa using few events (by simp)) fun due member => ?_
    obtain ⟨event, among, rfl⟩ := List.mem_map.mp member
    have := inside events (by simp) event among
    rw [Event.time_dueAfter]
    omega

theorem length_underway_le {most : Nat} (positive : 0 < size) (inside : Inside size history)
    (few : ∀ events ∈ history, events.length ≤ most) :
    (underway start size delay history).length ≤ most * ((delay + size - 1) / size) :=
  (dues_sparse inside few).length_filter_le positive

/-! ## Order -/

theorem dueAfter_same {others : List (Event Body)} (same : SameBy Event.frame events others) (clock : Nat) :
    SameBy Due.time (events.map (·.dueAfter clock delay)) (others.map (·.dueAfter clock delay)) := by
  refine same.map _ fun one _ two _ => ?_
  rw [Event.time_dueAfter, Event.time_dueAfter, ← UInt32.toNat_inj]
  omega

theorem stamp_eq_iff {clock other : Nat} {one two : Event Body} (first : clock ≤ other + one.frame.toNat + delay)
    (second : clock ≤ other + two.frame.toNat + delay) :
    (EventQueue.stamp clock (one.dueAfter other delay)).frame =
      (EventQueue.stamp clock (two.dueAfter other delay)).frame ↔ one.frame = two.frame := by
  have small := one.frame.toNat_lt
  have small' := two.frame.toNat_lt
  simp only [EventQueue.stamp, Event.atFrame, Event.time_dueAfter, ← UInt32.toNat_inj, UInt32.toNat_ofNat']
  omega

theorem arriving_same {others : List (List (Event Body))}
    (same : List.Forall₂ (SameBy Event.frame) history others) (index : Nat) :
    SameBy Event.frame (arriving start size delay history index) (arriving start size delay others index) := by
  unfold arriving dues
  -- Blocks are numbered from zero; the induction needs them numbered from anywhere.
  suffices every : ∀ first, SameBy Event.frame
      ((((history.zipIdx first).flatMap fun (events, index) =>
        events.map (·.dueAfter (start + index * size) delay)).filter fun due =>
          start + index * size ≤ due.time ∧ due.time < start + (index + 1) * size).map
            (EventQueue.stamp (start + index * size)))
      ((((others.zipIdx first).flatMap fun (events, index) =>
        events.map (·.dueAfter (start + index * size) delay)).filter fun due =>
          start + index * size ≤ due.time ∧ due.time < start + (index + 1) * size).map
            (EventQueue.stamp (start + index * size))) from every 0
  induction same with
  | nil => exact fun _ => .of_eq rfl
  | cons here _ ih =>
    intro first
    rw [List.zipIdx_cons, List.zipIdx_cons, List.flatMap_cons, List.flatMap_cons, List.filter_append,
      List.filter_append, List.map_append, List.map_append]
    refine SameBy.append ?_ (ih (first + 1))
    refine ((dueAfter_same here _).filter _).map _ fun one member two member' => ?_
    obtain ⟨among, timely⟩ := List.mem_filter.mp member
    obtain ⟨among', timely'⟩ := List.mem_filter.mp member'
    -- Stamped within the same block, two events share a frame afterwards only if they did before.
    obtain ⟨one, _, rfl⟩ := List.mem_map.mp among
    obtain ⟨two, _, rfl⟩ := List.mem_map.mp among'
    have timely := of_decide_eq_true timely
    have timely' := of_decide_eq_true timely'
    rw [Event.time_dueAfter] at timely timely'
    rw [stamp_eq_iff timely.1 timely'.1, Event.time_dueAfter, Event.time_dueAfter, ← UInt32.toNat_inj]
    omega

/-! ## Two delays -/

def Due.later (rest : Nat) (due : Due Body) : Due Body := ⟨due.time + rest, due.event⟩

theorem dues_add (wait rest : Nat) :
    dues start size (wait + rest) history = (dues start size wait history).map (·.later rest) := by
  unfold dues
  rw [List.map_flatMap]
  refine List.flatMap_congr fun entry _ => ?_
  rw [List.map_map]
  refine List.map_congr_left fun event _ => ?_
  simp only [Event.dueAfter, Due.later, Function.comp_apply, Nat.add_assoc]

theorem start_le_of_mem_dues {due : Due Body} (member : due ∈ dues start size delay history) :
    start ≤ due.time := by
  obtain ⟨index, _, _, event, _, rfl⟩ := mem_dues.mp member
  rw [Event.time_dueAfter]
  omega

/-- An event that came out in a block is due after another delay as if it had waited
for both. -/
theorem dueAfter_stamp {clock rest : Nat} {due : Due Body} (small : size ≤ 2 ^ 32) (below : clock ≤ due.time)
    (above : due.time < clock + size) :
    (EventQueue.stamp clock due).dueAfter clock rest = ⟨due.time + rest, EventQueue.stamp clock due⟩ := by
  unfold Event.dueAfter
  congr 1
  simp only [EventQueue.stamp, Event.atFrame, UInt32.toNat_ofNat']
  rw [Nat.mod_eq_of_lt (by omega)]
  omega

theorem filter_lt_same (items : List (Due Body)) {low high : Nat} (ordered : low ≤ high) :
    SameBy Due.time (items.filter (·.time < high))
      (items.filter (·.time < low) ++ items.filter fun due => low ≤ due.time ∧ due.time < high) := by
  intro time
  rw [List.filter_append, List.filter_filter, List.filter_filter, List.filter_filter]
  -- Items of one time are all in the first part or all in the second.
  by_cases early : time < low
  · have none : items.filter (fun due => decide (due.time = time) &&
        decide (low ≤ due.time ∧ due.time < high)) = [] := by
      rw [List.filter_eq_nil_iff]
      intro due _
      simp only [Bool.and_eq_true, decide_eq_true_eq]
      omega
    rw [none, List.append_nil]
    refine List.filter_congr fun due _ => ?_
    rw [Bool.eq_iff_iff]
    simp only [Bool.and_eq_true, decide_eq_true_eq]
    omega
  · have none : items.filter (fun due => decide (due.time = time) && decide (due.time < low)) = [] := by
      rw [List.filter_eq_nil_iff]
      intro due _
      simp only [Bool.and_eq_true, decide_eq_true_eq]
      omega
    rw [none, List.nil_append]
    refine List.filter_congr fun due _ => ?_
    rw [Bool.eq_iff_iff]
    simp only [Bool.and_eq_true, decide_eq_true_eq]
    omega

theorem arriving_dueAfter (small : size ≤ 2 ^ 32) (wait rest index : Nat) :
    (arriving start size wait history index).map (·.dueAfter (start + index * size) rest) =
      ((dues start size wait history).filter fun due =>
        start + index * size ≤ due.time ∧ due.time < start + (index + 1) * size).map fun due =>
          ⟨due.time + rest, EventQueue.stamp (start + index * size) due⟩ := by
  unfold arriving
  rw [List.map_map]
  refine List.map_congr_left fun due member => ?_
  have timely := of_decide_eq_true (List.mem_filter.mp member).2
  rw [Nat.succ_mul, ← Nat.add_assoc] at timely
  exact dueAfter_stamp small timely.1 timely.2

/-- What of some events in flight comes out in a block after another delay. -/
def released (start size rest index : Nat) (items : List (Due Body)) : List (Event Body) :=
  (items.filter fun due => start + index * size ≤ due.time + rest ∧
    due.time + rest < start + (index + 1) * size).map
      fun due => EventQueue.stamp (start + index * size) (due.later rest)

theorem arriving_add (wait rest index : Nat) : arriving start size (wait + rest) history index =
    released start size rest index (dues start size wait history) := by
  unfold arriving released
  rw [dues_add, List.filter_map, List.map_map]
  rfl

theorem released_append (rest index : Nat) (first second : List (Due Body)) :
    released start size rest index (first ++ second) =
      released start size rest index first ++ released start size rest index second := by
  unfold released
  rw [List.filter_append, List.map_append]

theorem released_same (small : size ≤ 2 ^ 32) {rest index : Nat} {first second : List (Due Body)}
    (same : SameBy Due.time first second) :
    SameBy Event.frame (released start size rest index first) (released start size rest index second) := by
  refine (same.filter _).map _ fun one member two member' => ?_
  have timely := of_decide_eq_true (List.mem_filter.mp member).2
  have timely' := of_decide_eq_true (List.mem_filter.mp member').2
  rw [Nat.succ_mul] at timely timely'
  simp only [EventQueue.stamp, Event.atFrame, Due.later, ← UInt32.toNat_inj, UInt32.toNat_ofNat']
  omega

theorem arriving_sofar (small : size ≤ 2 ^ 32) (wait rest count index : Nat) :
    SameBy Event.frame
      (arriving start size rest ((List.range count).map (arriving start size wait history)) index)
      (released start size rest index
        ((dues start size wait history).filter (·.time < start + count * size))) := by
  induction count with
  | zero =>
    have none : (dues start size wait history).filter (·.time < start + 0 * size) = [] := by
      rw [List.filter_eq_nil_iff]
      intro due member
      have := start_le_of_mem_dues member
      rw [decide_eq_true_eq]
      omega
    rw [none]
    exact .of_eq rfl
  | succ count ih =>
    have more := filter_lt_same (dues start size wait history)
      (Nat.le_add_right (start + count * size) size)
    rw [Nat.add_assoc, ← Nat.succ_mul] at more
    refine SameBy.trans ?_ (released_same small more).symm
    rw [released_append]
    unfold arriving at ih ⊢
    rw [List.range_succ, List.map_append, List.map_singleton, dues_concat, List.length_map, List.length_range,
      List.filter_append, List.map_append]
    refine ih.append (.of_eq ?_)
    -- The newest block's events still carry the times at which they came out.
    have newest := @arriving_dueAfter _ start _ history small wait rest count
    unfold arriving at newest
    rw [newest, List.filter_map, List.map_map]
    rfl

/-- Two delays one after the other are one delay. -/
theorem arriving_arriving (small : size ≤ 2 ^ 32) {wait rest count index : Nat} (inside : index < count) :
    SameBy Event.frame
      (arriving start size rest ((List.range count).map (arriving start size wait history)) index)
      (arriving start size (wait + rest) history index) := by
  refine (arriving_sofar small wait rest count index).trans (.of_eq ?_)
  rw [arriving_add]
  unfold released
  rw [List.filter_filter]
  congr 1
  refine List.filter_congr fun due _ => ?_
  have := Nat.mul_le_mul_right size (Nat.succ_le_of_lt inside)
  rw [Nat.succ_eq_add_one] at this
  rw [Bool.eq_iff_iff]
  simp only [Bool.and_eq_true, decide_eq_true_eq]
  omega

end Patchbay
