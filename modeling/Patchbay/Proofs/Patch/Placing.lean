import Mathlib.Data.List.Induction
import Mathlib.Data.List.Nodup
import Mathlib.Data.List.Sort
import Patchbay.Patch.Order

/-! Placing the slots of a patch one after the other.

To follow each edge once and count those that are left comes to the same as to look, in
each round, for the first pending slot that nothing pending feeds. What is placed so is
placed behind all that feeds it, and what is left waits for something else that is left.
-/

set_option autoImplicit false

namespace Patchbay

namespace RenderOrder

variable {feeders : Nat → List Nat}

def ready (feeders : Nat → List Nat) (placed : List Nat) (slot : Nat) : Bool :=
  (feeders slot).all placed.contains

/-- Places the first ready slot of `pending`, `rounds` times or until none is
ready. Answers what was placed and what was left. -/
def place (feeders : Nat → List Nat) :
    (rounds : Nat) → (placed pending : List Nat) → List Nat × List Nat
  | 0, placed, pending => (placed, pending)
  | rounds + 1, placed, pending =>
      match pending.find? (ready feeders placed) with
      | none => (placed, pending)
      | some slot => place feeders rounds (placed ++ [slot]) (pending.erase slot)

def Respects (feeders : Nat → List Nat) (order : List Nat) : Prop :=
  ∀ before slot after, order = before ++ slot :: after → ∀ feeder ∈ feeders slot, feeder ∈ before

theorem ready_eq_true {placed : List Nat} {slot : Nat} :
    ready feeders placed slot = true ↔ ∀ feeder ∈ feeders slot, feeder ∈ placed := by
  simp [ready]

theorem Respects.nil : Respects feeders [] := by
  intro before slot after split
  simp at split

theorem Respects.concat {placed : List Nat} {slot : Nat} (soFar : Respects feeders placed)
    (fed : ∀ feeder ∈ feeders slot, feeder ∈ placed) : Respects feeders (placed ++ [slot]) := by
  intro before other after split feeder member
  rcases List.eq_nil_or_concat after with rfl | ⟨initial, last, rfl⟩
  · obtain ⟨rfl, same⟩ := List.append_inj' split rfl
    obtain rfl : slot = other := by simpa using same
    exact fed feeder member
  · have shorter : placed ++ [slot] = (before ++ other :: initial) ++ [last] := by simpa using split
    obtain ⟨rfl, _⟩ := List.append_inj' shorter rfl
    exact soFar before other initial rfl feeder member

theorem Respects.of_append {sooner later : List Nat} (respects : Respects feeders (sooner ++ later)) :
    Respects feeders sooner := by
  intro before slot after split
  exact respects before slot (after ++ later) (by simp [split])

theorem Respects.fed {order : List Nat} {slot feeder : Nat} (respects : Respects feeders order) (member : slot ∈ order)
    (feeds : feeder ∈ feeders slot) : feeder ∈ order := by
  obtain ⟨before, after, rfl⟩ := List.append_of_mem member
  exact List.mem_append_left _ (respects before slot after rfl feeder feeds)

/-- What holds of a slot once it holds of all that feeds it, holds of all that is
placed. -/
theorem Respects.forall {motive : Nat → Prop} (step : ∀ slot, (∀ feeder ∈ feeders slot, motive feeder) → motive slot)
    {order : List Nat} (respects : Respects feeders order) : ∀ slot ∈ order, motive slot := by
  induction order using List.reverseRecOn with
  | nil => simp
  | append_singleton sooner last ih =>
    have earlier := ih respects.of_append
    intro slot member
    rcases List.mem_append.mp member with among | here
    · exact earlier slot among
    · obtain rfl := List.mem_singleton.mp here
      apply step
      intro feeder feeds
      exact earlier feeder (respects sooner slot [] rfl feeder feeds)

/-- Placing asks only what feeds the slots that are pending, not in which order or how
often. -/
theorem place_congr {others : Nat → List Nat} {rounds : Nat} {placed pending : List Nat}
    (same : ∀ slot ∈ pending, ∀ feeder, feeder ∈ others slot ↔ feeder ∈ feeders slot) :
    place others rounds placed pending = place feeders rounds placed pending := by
  induction rounds generalizing placed pending with
  | zero => rfl
  | succ rounds ih =>
    have first : pending.find? (ready others placed) = pending.find? (ready feeders placed) := by
      rw [← List.head?_filter, ← List.head?_filter]
      congr 1
      apply List.filter_congr
      intro slot member
      rw [Bool.eq_iff_iff, ready_eq_true, ready_eq_true]
      exact forall_congr' fun feeder => imp_congr_left (same slot member feeder)
    unfold place
    rw [first]
    split
    · rfl
    · exact ih fun slot member => same slot (List.mem_of_mem_erase member)

/-- Placing moves slots from what is pending to what is placed, keeps the order
right, and leaves only slots that wait for something not placed. -/
theorem place_spec {rounds : Nat} {placed pending order left : List Nat}
    (enough : pending.length ≤ rounds) (soFar : Respects feeders placed)
    (answer : place feeders rounds placed pending = (order, left)) :
    (order ++ left).Perm (placed ++ pending) ∧ Respects feeders order ∧
      ∀ slot ∈ left, ∃ feeder ∈ feeders slot, feeder ∉ order := by
  induction rounds generalizing placed pending with
  | zero =>
    obtain rfl : pending = [] := List.eq_nil_of_length_eq_zero (Nat.le_zero.mp enough)
    cases answer
    exact ⟨.refl _, soFar, by simp⟩
  | succ rounds ih =>
    unfold place at answer
    split at answer
    · rename_i none
      cases answer
      refine ⟨.refl _, soFar, ?_⟩
      intro slot member
      have waiting := List.find?_eq_none.mp none slot member
      rw [ready_eq_true] at waiting
      push Not at waiting
      exact waiting
    · rename_i slot found
      have member := List.mem_of_find?_eq_some found
      have fed := ready_eq_true.mp (List.find?_some found)
      have shorter : (pending.erase slot).length ≤ rounds := by
        rw [List.length_erase_of_mem member]
        omega
      obtain ⟨perm, respects, stuck⟩ := ih shorter (soFar.concat fed) answer
      refine ⟨perm.trans ?_, respects, stuck⟩
      rw [List.append_assoc]
      exact List.Perm.append_left placed (List.perm_cons_erase member).symm

theorem place_keeps {rounds : Nat} {placed pending order left : List Nat}
    (answer : place feeders rounds placed pending = (order, left)) : placed <+: order ∧ left.Sublist pending := by
  induction rounds generalizing placed pending with
  | zero =>
    cases answer
    exact ⟨List.prefix_refl _, .refl _⟩
  | succ rounds ih =>
    unfold place at answer
    split at answer
    · cases answer
      exact ⟨List.prefix_refl _, .refl _⟩
    · obtain ⟨longer, fewer⟩ := ih answer
      exact ⟨(List.prefix_append _ _).trans longer, fewer.trans List.erase_sublist⟩

/-! ## Counting -/

theorem enqueue_filter {isReady nowReady : Nat → Bool} {pending : List Nat} {slot : Nat}
    (ascending : pending.Pairwise (· < ·)) (member : slot ∈ pending) (waited : isReady slot = false)
    (now : nowReady slot = true) (same : ∀ other, other ≠ slot → nowReady other = isReady other) :
    enqueue slot (pending.filter isReady) = pending.filter nowReady := by
  induction pending with
  | nil => cases member
  | cons first rest ih =>
    obtain ⟨below, ascending⟩ := List.pairwise_cons.mp ascending
    by_cases here : first = slot
    · subst here
      have others : rest.filter nowReady = rest.filter isReady := by
        apply List.filter_congr
        intro other later
        exact same other (Nat.ne_of_gt (below other later))
      rw [List.filter_cons_of_neg (by simp [waited]), List.filter_cons_of_pos now, others]
      -- All that is ready already comes behind it.
      cases ready : rest.filter isReady with
      | nil => rfl
      | cons next later =>
        have above : next ∈ rest := List.mem_of_mem_filter (ready ▸ List.mem_cons_self)
        rw [enqueue, if_pos (Nat.le_of_lt (below next above))]
    · have later : slot ∈ rest := (List.mem_cons.mp member).resolve_left (Ne.symm here)
      rw [List.filter_cons, List.filter_cons, same first here, ← ih ascending later]
      split
      · rw [enqueue, if_neg (Nat.not_le.mpr (below slot later))]
      · rfl

def unfed (feeders : Nat → List Nat) (placed : List Nat) (slot : Nat) : Nat :=
  (feeders slot).countP fun feeder => !placed.contains feeder

theorem unfed_eq_zero {placed : List Nat} {slot : Nat} :
    unfed feeders placed slot = 0 ↔ ready feeders placed slot = true := by
  simp [unfed, ready]

theorem unfed_concat {placed : List Nat} {last : Nat} (new : last ∉ placed) (slot : Nat) :
    unfed feeders placed slot = unfed feeders (placed ++ [last]) slot + (feeders slot).count last := by
  unfold unfed
  induction feeders slot with
  | nil => rfl
  | cons feeder rest ih =>
    rw [List.countP_cons, List.countP_cons, List.count_cons, ih]
    by_cases here : feeder = last
    · subst here
      simp [new]
      omega
    · simp [here]
      omega

namespace Progress

variable {progress : Progress} {pending : List Nat} {left : Nat → Nat}

/-- The counts are right, and what is ready are the pending slots for which there is
nothing left to count. -/
structure Tallies (progress : Progress) (pending : List Nat) (left : Nat → Nat) : Prop where
  degrees : ∀ slot, progress.degrees.getD slot 0 = left slot
  ready : progress.ready = pending.filter (left · = 0)

theorem Tallies.follow (tallies : progress.Tallies pending left) (ascending : pending.Pairwise (· < ·)) {dest : Nat}
    (member : dest ∈ pending) (counted : 0 < left dest) :
    (progress.follow dest).Tallies pending (Function.update left dest (left dest - 1)) := by
  -- Beyond the table nothing would be left to count.
  have inside : dest < progress.degrees.size := by
    by_contra outside
    rw [← tallies.degrees dest, Array.getD_eq_getD_getElem?, Array.getElem?_eq_none (Nat.le_of_not_lt outside)] at counted
    cases counted
  constructor
  · intro slot
    have before := tallies.degrees slot
    rw [Array.getD_eq_getD_getElem?] at before
    simp only [Progress.follow, tallies.degrees, Array.getD_eq_getD_getElem?, Array.getElem?_setIfInBounds, inside,
      Function.update_apply]
    by_cases here : slot = dest
    · simp [here]
    · simp [here, Ne.symm here, before]
  · simp only [Progress.follow, tallies.degrees, tallies.ready]
    by_cases last : left dest - 1 = 0
    · rw [if_pos last]
      apply enqueue_filter ascending member
      · simpa using Nat.ne_of_gt counted
      · simpa using last
      · intro other apart
        rw [Function.update_of_ne apart]
    · rw [if_neg last]
      apply List.filter_congr
      intro slot _
      by_cases here : slot = dest
      · subst here
        simp [last, Nat.ne_of_gt counted]
      · rw [Function.update_of_ne here]

theorem Tallies.follow_all {dests : List Nat}
    (tallies : progress.Tallies pending fun slot => left slot + dests.count slot)
    (ascending : pending.Pairwise (· < ·)) (inside : ∀ dest ∈ dests, dest ∈ pending) :
    (dests.foldl Progress.follow progress).Tallies pending left := by
  induction dests generalizing progress with
  | nil => simpa using tallies
  | cons dest rest ih =>
    obtain ⟨here, later⟩ := List.forall_mem_cons.mp inside
    apply ih _ later
    have followed := tallies.follow ascending here (by rw [List.count_cons_self]; omega)
    convert followed using 1
    funext slot
    rw [Function.update_apply]
    split
    · rename_i same
      simp [same]
    · rename_i apart
      rw [List.count_cons_of_ne (Ne.symm apart)]

@[simp] theorem foldl_follow_placed (dests : List Nat) :
    (dests.foldl Progress.follow progress).placed = progress.placed := by
  induction dests generalizing progress with
  | nil => rfl
  | cons dest rest ih => exact ih

/-- How a run stands before each round: the counts are right, and the slots that are
not pending are placed, each behind all that feeds it. -/
structure Underway (feeders : Nat → List Nat) (slots : List Nat) (progress : Progress) (pending : List Nat) : Prop where
  tallies : progress.Tallies pending (unfed feeders progress.placed)
  ascending : pending.Pairwise (· < ·)
  respects : Respects feeders progress.placed
  perm : (progress.placed ++ pending).Perm slots

/-- The first slot that is ready is the first pending one that nothing pending feeds. -/
theorem Underway.find?_eq {slots : List Nat} (underway : Underway feeders slots progress pending) :
    pending.find? (RenderOrder.ready feeders progress.placed) = progress.ready.head? := by
  rw [underway.tallies.ready, List.head?_filter]
  congr 1
  funext slot
  rw [Bool.eq_iff_iff, ← unfed_eq_zero, decide_eq_true_eq]

theorem Underway.filter_eq {slots : List Nat} (underway : Underway feeders slots progress pending)
    (sorted : slots.Pairwise (· < ·)) (waiting : ∀ slot ∈ pending, ∃ feeder ∈ feeders slot, feeder ∉ progress.placed) :
    (slots.filter fun slot => 0 < progress.degrees.getD slot 0) = pending := by
  -- Nothing is left to count down exactly where all that feeds a slot is placed.
  have waits : ∀ slot ∈ slots, 0 < progress.degrees.getD slot 0 ↔ slot ∈ pending := by
    intro slot member
    rw [underway.tallies.degrees, Nat.pos_iff_ne_zero, Ne, unfed_eq_zero, ready_eq_true]
    constructor
    · intro unready
      apply (List.mem_append.mp (underway.perm.mem_iff.mpr member)).resolve_left
      intro placed
      exact unready fun feeder feeds => underway.respects.fed placed feeds
    · intro pends fed
      obtain ⟨feeder, feeds, absent⟩ := waiting slot pends
      exact absent (fed feeder feeds)
  apply List.Pairwise.eq_of_mem_iff (sorted.filter _) underway.ascending
  intro slot
  rw [List.mem_filter, decide_eq_true_eq]
  constructor
  · rintro ⟨member, positive⟩
    exact (waits slot member).mp positive
  · intro pends
    have member := underway.perm.subset (List.mem_append_right _ pends)
    exact ⟨member, (waits slot member).mpr pends⟩

variable {outgoing : Nat → List Nat} {slots : List Nat} (nodup : slots.Nodup)
  (stays : ∀ source, ∀ dest ∈ outgoing source, dest ∈ slots)
  (counts : ∀ source dest, (outgoing source).count dest = (feeders dest).count source)
include nodup stays counts

/-- A round keeps to it: what the placed slot feeds is counted down by one for each edge,
and none of that was placed before. -/
theorem Underway.step {slot : Nat} {rest : List Nat} (underway : Underway feeders slots progress pending)
    (first : progress.ready = slot :: rest) :
    Underway feeders slots ((outgoing slot).foldl Progress.follow
      { progress with ready := rest, placed := progress.placed ++ [slot] }) (pending.erase slot) := by
  have found : pending.find? (RenderOrder.ready feeders progress.placed) = some slot := by
    rw [underway.find?_eq, first]
    rfl
  have fed := ready_eq_true.mp (List.find?_some found)
  have member := List.mem_of_find?_eq_some found
  have distinct := underway.perm.nodup_iff.mpr nodup
  have new : slot ∉ progress.placed := by
    intro placed
    exact (List.nodup_append.mp distinct).2.2 slot placed slot member rfl
  have perm : (progress.placed ++ [slot] ++ pending.erase slot).Perm slots := by
    rw [List.append_assoc]
    exact (List.Perm.append_left _ (List.perm_cons_erase member).symm).trans underway.perm
  have respects := underway.respects.concat fed
  have ascending : (pending.erase slot).Pairwise (· < ·) := underway.ascending.sublist List.erase_sublist
  refine ⟨?_, ascending, by simpa using respects, by simpa using perm⟩
  rw [foldl_follow_placed]
  apply Tallies.follow_all _ ascending
  · -- What the slot feeds has no place yet, or the slot would have had one before.
    intro dest leads
    have feeds : slot ∈ feeders dest := by
      rw [← List.count_pos_iff, ← counts, List.count_pos_iff]
      exact leads
    apply (List.mem_append.mp (perm.mem_iff.mpr (stays slot dest leads))).resolve_left
    intro placed
    apply new
    rcases List.mem_append.mp placed with sooner | here
    · exact underway.respects.fed sooner feeds
    · exact fed slot (List.mem_singleton.mp here ▸ feeds)
  · constructor
    · intro other
      rw [underway.tallies.degrees, unfed_concat new, counts]
    · have readied := underway.tallies.ready
      rw [first, eq_comm, List.filter_eq_cons_iff] at readied
      obtain ⟨before, after, rfl, waiting, now, others⟩ := readied
      have absent : slot ∉ before := fun sooner => waiting slot sooner now
      simp only [counts, ← unfed_concat new]
      rw [List.erase_append_right _ absent, List.erase_cons_head, List.filter_append, others,
        List.filter_eq_nil_iff.mpr waiting, List.nil_append]

theorem Underway.run {rounds : Nat} (underway : Underway feeders slots progress pending) :
    ∃ left, place feeders rounds progress.placed pending = ((progress.run outgoing rounds).placed, left) ∧
      Underway feeders slots (progress.run outgoing rounds) left := by
  induction rounds generalizing progress pending with
  | zero => exact ⟨pending, rfl, underway⟩
  | succ rounds ih =>
    unfold place Progress.run
    rw [underway.find?_eq]
    cases first : progress.ready with
    | nil => exact ⟨pending, rfl, underway⟩
    | cons slot rest =>
      have next := underway.step nodup stays counts first
      obtain ⟨left, same, last⟩ := ih next
      rw [foldl_follow_placed] at same
      exact ⟨left, same, last⟩

end Progress

end RenderOrder

end Patchbay
