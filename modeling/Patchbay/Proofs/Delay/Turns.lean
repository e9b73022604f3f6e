import Patchbay.Proofs.Delay.Queue

/-! A queue over many blocks.

Blocks of any lengths follow one another without a gap, each with a list of events
that is exchanged for those that are due, under a delay of its own. What a queue
takes in over such a run comes out in the block that holds its due time or is still
in flight at the end, and every event that does not is counted.
-/

set_option autoImplicit false

namespace Patchbay

variable {Body : Type}

/-- A block's events on their way into a queue, the delay set for the block and the
block's length. -/
structure Intake (Body : Type) where
  list : EventList Body
  delay : Nat
  size : Nat

/-- What a queue makes of a block: the block's start, the queue as the block finds it,
the list that comes out, and the count of dropped events. -/
structure Turnover (Body : Type) extends Intake Body where
  clock : Nat
  before : EventQueue Body
  out : EventList Body
  dropped : Nat

def Intake.Proper (intake : Intake Body) : Prop :=
  intake.list.events.length ≤ intake.list.capacity ∧ ∀ event ∈ intake.list.events, event.frame.toNat < intake.size

instance (intake : Intake Body) : Decidable intake.Proper :=
  inferInstanceAs (Decidable (_ ∧ ∀ event ∈ intake.list.events, event.frame.toNat < intake.size))

/-- A block of `size` frames with at most `most` events, none of which is delayed by more
than `longest`. -/
def Intake.Allowed (most longest size : Nat) (intake : Intake Body) : Prop :=
  intake.size = size ∧ intake.list.events.length ≤ most ∧ intake.delay ≤ longest ∧
    ∀ event ∈ intake.list.events, event.frame.toNat < size

instance (most longest size : Nat) (intake : Intake Body) : Decidable (intake.Allowed most longest size) :=
  inferInstanceAs (Decidable (_ ∧ _ ∧ _ ∧ ∀ event ∈ intake.list.events, event.frame.toNat < size))

/-- No time that comes up in the blocks that start at `clock` leaves the range of counts. -/
def Timely : Nat → List (Intake Body) → Prop
  | _, [] => True
  | clock, intake :: rest =>
      (∀ event ∈ intake.list.events, clock + event.frame.toNat + intake.delay < Count.limit) ∧
        clock + intake.size < Count.limit ∧ Timely (clock + intake.size) rest

instance decidableTimely : (clock : Nat) → (intakes : List (Intake Body)) → Decidable (Timely clock intakes)
  | _, [] => isTrue trivial
  | clock, intake :: rest =>
      have := decidableTimely (clock + intake.size) rest
      inferInstanceAs (Decidable ((∀ event ∈ intake.list.events,
        clock + event.frame.toNat + intake.delay < Count.limit) ∧ clock + intake.size < Count.limit ∧ Timely _ rest))

def endOf (clock : Nat) (intakes : List (Intake Body)) : Nat := clock + (intakes.map (·.size)).sum

def EventQueue.turns (queue : EventQueue Body) (clock : Nat) :
    List (Intake Body) → Checked (List (Turnover Body) × EventQueue Body)
  | [] => .ok ([], queue)
  | intake :: rest => do
      let (dropped, out, next) ← queue.process intake.list intake.delay clock intake.size
      let (others, last) ← next.turns (clock + intake.size) rest
      return ({ intake with clock, before := queue, out, dropped } :: others, last)

theorem filter_filter_append {keep : Due Body → Bool} {stop : Nat} (late : ∀ due, keep due = true → stop ≤ due.time)
    (items more : List (Due Body)) :
    (items.filter (stop ≤ ·.time) ++ more).filter keep = (items ++ more).filter keep := by
  rw [List.filter_append, List.filter_append, List.filter_filter]
  congr 1
  refine List.filter_congr fun due _ => ?_
  rw [Bool.and_eq_left_iff_imp, decide_eq_true_eq]
  exact late due

theorem filter_append_of_le {keep : Due Body → Bool} {stop : Nat} (soon : ∀ due, keep due = true → due.time < stop)
    (items : List (Due Body)) {more : List (Due Body)} (later : ∀ due ∈ more, stop ≤ due.time) :
    (items ++ more).filter keep = items.filter keep := by
  rw [List.filter_append, List.append_right_eq_self]
  refine List.filter_eq_nil_iff.mpr fun due member kept => ?_
  exact Nat.not_lt.mpr (later due member) (soon due kept)

namespace Turnover

def given (turn : Turnover Body) : List (Due Body) :=
  turn.list.events.map (·.dueAfter turn.clock turn.delay)

def taken (turn : Turnover Body) : List (Due Body) :=
  (turn.before.admitted turn.delay turn.list.events).map (·.dueAfter turn.clock turn.delay)

def due (turn : Turnover Body) (items : List (Due Body)) : List (Due Body) :=
  items.filter fun due => turn.clock ≤ due.time ∧ due.time < turn.clock + turn.size

/-- The queue has a place for every event of the block, and refuses none. -/
def Seated (turn : Turnover Body) : Prop :=
  turn.before.pending.length + turn.list.events.length ≤ turn.before.capacity ∧
    (turn.before.Idle turn.delay ∨ ∃ next, turn.before.takeAll turn.delay turn.clock turn.list.events = .ok (0, next))

theorem clock_le_of_mem_taken {turn : Turnover Body} {due : Due Body} (member : due ∈ turn.taken) :
    turn.clock ≤ due.time := by
  obtain ⟨event, _, rfl⟩ := List.mem_map.mp member
  rw [Event.time_dueAfter]
  omega

theorem due_eq {turn : Turnover Body} {start more : List (Due Body)} (early : ∀ due ∈ start, turn.clock ≤ due.time)
    (later : ∀ due ∈ more, turn.clock + turn.size ≤ due.time) :
    turn.due (start ++ turn.taken ++ more) = (start ++ turn.taken).filter (·.time < turn.clock + turn.size) := by
  unfold due
  rw [filter_append_of_le (fun due kept => (of_decide_eq_true kept).2) _ later]
  refine List.filter_congr fun due member => decide_eq_decide.mpr (iff_and_self.mpr fun _ => ?_).symm
  rcases List.mem_append.mp member with there | here
  · exact early due there
  · exact clock_le_of_mem_taken here

end Turnover

/-- The account of a run: `start` is in flight when the first block begins, and `left`
when the last one has ended. -/
structure Accounts (start : List (Due Body)) (clock : Nat) (intakes : List (Intake Body))
    (log : List (Turnover Body)) (left : List (Due Body)) : Prop where
  inputs : log.map (·.toIntake) = intakes
  /-- Blocks do not overlap, so nothing is due in two of them. -/
  apart : log.Pairwise fun one two => one.clock + one.size ≤ two.clock
  /-- Only what is given is taken in, and no event twice. -/
  among : ∀ turn ∈ log, turn.taken.Sublist turn.given
  /-- Whatever does not come out and is not in flight was counted as dropped. -/
  count : start.length + (intakes.map (·.list.events.length)).sum =
    (log.map (·.out.events.length)).sum + (log.map (·.dropped)).sum + left.length
  /-- A block gives out what falls due in it, up to its list's capacity; events of one
  frame come in the order in which they were taken. -/
  released : ∀ turn ∈ log, SameBy Event.frame turn.out.events
    (((turn.due (start ++ log.flatMap Turnover.taken)).map (EventQueue.stamp turn.clock)).take turn.list.capacity)
  underway : left = (start ++ log.flatMap Turnover.taken).filter (endOf clock intakes ≤ ·.time)
  sorted : ∀ turn ∈ log, turn.delay ≠ 0 ∨ turn.before.pending ≠ [] → turn.out.isSorted = true

namespace EventQueue

variable {queue next last : EventQueue Body} {clock dropped : Nat} {intake : Intake Body} {intakes : List (Intake Body)}
  {log : List (Turnover Body)} {out : EventList Body}

/-! ## One turn -/

/-- Every event of a block, and every one in flight, comes out, is counted or stays. -/
theorem process_count (answer : queue.process intake.list intake.delay clock intake.size = .ok (dropped, out, next))
    (proper : intake.Proper) : queue.pending.length + intake.list.events.length =
      out.events.length + dropped + next.pending.length := by
  obtain ⟨rfl, rfl, released, _⟩ := process_turnover answer proper.2 proper.1 rfl
  have some := (queue.admitted_sublist intake.delay intake.list.events).length_le
  -- What was admitted or in flight is due before the block ends, or it is not.
  have parts := List.length_eq_length_filter_add (fun due : Due Body => decide (due.time < clock + intake.size))
    (l := queue.pending ++ (queue.admitted intake.delay intake.list.events).map (·.dueAfter clock intake.delay))
  simp only [← decide_not, Nat.not_lt, List.length_append, List.length_map] at parts
  rw [released.perm.length_eq, List.length_take, List.length_map]
  dsimp only
  omega

/-! ## Many turns -/

theorem turns_cons : queue.turns clock (intake :: intakes) = .ok (log, last) ↔ ∃ dropped out next others,
    queue.process intake.list intake.delay clock intake.size = .ok (dropped, out, next) ∧
      next.turns (clock + intake.size) intakes = .ok (others, last) ∧
      log = { intake with clock, before := queue, out, dropped } :: others := by
  simp only [turns, bind_eq_ok, pure_eq_ok, Prod.exists, Prod.mk.injEq]
  constructor
  · rintro ⟨dropped, out, next, first, others, _, later, rfl, rfl⟩
    exact ⟨dropped, out, next, others, first, later, rfl⟩
  · rintro ⟨dropped, out, next, others, first, later, rfl⟩
    exact ⟨dropped, out, next, first, others, last, later, rfl, rfl⟩

theorem clock_le_of_turns (answer : queue.turns clock intakes = .ok (log, last)) :
    ∀ turn ∈ log, clock ≤ turn.clock := by
  induction intakes generalizing queue clock log with
  | nil =>
    cases answer
    nofun
  | cons intake rest ih =>
    obtain ⟨_, _, _, others, _, later, rfl⟩ := turns_cons.mp answer
    intro turn member
    rcases List.mem_cons.mp member with rfl | among
    · exact Nat.le_refl _
    · exact Nat.le_trans (Nat.le_add_right _ _) (ih later turn among)

theorem le_of_mem_taken_of_turns (answer : queue.turns clock intakes = .ok (log, last)) :
    ∀ due ∈ log.flatMap Turnover.taken, clock ≤ due.time := by
  intro due member
  obtain ⟨turn, among, taken⟩ := List.mem_flatMap.mp member
  exact Nat.le_trans (clock_le_of_turns answer turn among) (Turnover.clock_le_of_mem_taken taken)

theorem turns_ok (queue : EventQueue Body) (timely : Timely clock intakes) :
    ∃ result, queue.turns clock intakes = .ok result := by
  induction intakes generalizing queue clock with
  | nil => exact ⟨_, rfl⟩
  | cons intake rest ih =>
    obtain ⟨here, stop, later⟩ := timely
    obtain ⟨⟨dropped, out, next⟩, first⟩ := queue.process_ok intake.list here stop
    obtain ⟨⟨others, last⟩, turns⟩ := ih next later
    exact ⟨_, turns_cons.mpr ⟨dropped, out, next, others, first, turns, rfl⟩⟩

/-- Turn by turn, what a queue takes in is accounted for. -/
theorem accounts_of_turns (answer : queue.turns clock intakes = .ok (log, last))
    (early : ∀ due ∈ queue.pending, clock ≤ due.time) (proper : ∀ intake ∈ intakes, intake.Proper) :
    Accounts queue.pending clock intakes log last.pending := by
  -- What is left of the start after one block is the start of the rest of the run, and
  -- what a later block gives out or leaves is not touched by that filter.
  induction intakes generalizing queue clock log with
  | nil =>
    cases answer
    refine ⟨rfl, .nil, nofun, by simp, nofun, ?_, nofun⟩
    rw [List.flatMap_nil, List.append_nil]
    exact (List.filter_eq_self.mpr fun due member => decide_eq_true (early due member)).symm
  | cons intake rest ih =>
    obtain ⟨whole, others⟩ := List.forall_mem_cons.mp proper
    obtain ⟨dropped, out, next, log, first, turns, rfl⟩ := turns_cons.mp answer
    have after := clock_le_of_turns turns
    have count := process_count first whole
    obtain ⟨nextIs, _, released, sorted⟩ := process_turnover first whole.2 whole.1 rfl
    have held : next.pending = _ := congrArg pending nextIs
    have remaining : ∀ due ∈ next.pending, clock + intake.size ≤ due.time := by
      rw [held]
      exact fun due member => of_decide_eq_true (List.mem_filter.mp member).2
    have account := ih turns remaining others
    refine ⟨congrArg _ account.inputs, List.pairwise_cons.mpr ⟨after, account.apart⟩,
      List.forall_mem_cons.mpr ⟨(admitted_sublist ..).map _, account.among⟩, ?_, ?_, ?_, ?_⟩
    · have counted := account.count
      simp only [List.map_cons, List.sum_cons]
      omega
    · rw [List.flatMap_cons, ← List.append_assoc]
      refine List.forall_mem_cons.mpr ⟨?_, fun turn member => ?_⟩
      · rw [Turnover.due_eq early (le_of_mem_taken_of_turns turns)]
        exact released
      · refine (account.released turn member).trans (.of_eq ?_)
        rw [held]
        congr 2
        refine filter_filter_append (fun due kept => ?_) _ _
        exact Nat.le_trans (after turn member) (of_decide_eq_true kept).1
    · have end_ : endOf clock (intake :: rest) = endOf (clock + intake.size) rest := by
        rw [endOf, endOf, List.map_cons, List.sum_cons, Nat.add_assoc]
      rw [end_, account.underway, held, List.flatMap_cons, ← List.append_assoc]
      refine filter_filter_append (fun due kept => ?_) _ _
      exact Nat.le_trans (Nat.le_add_right _ _) (of_decide_eq_true kept)
    · refine List.forall_mem_cons.mpr ⟨fun busy => sorted ?_, account.sorted⟩
      rintro ⟨instant, empty⟩
      exact busy.elim (· instant) (· empty)

/-- A stamp has 32 bits, which is enough for the frames of a block that is not longer. -/
theorem stamp_due {turn : Turnover Body} {items : List (Due Body)} {due : Due Body} (member : due ∈ turn.due items) :
    (stamp turn.clock due).body = due.event.body ∧
      (stamp turn.clock due).frame.toNat = (due.time - turn.clock) % 2 ^ 32 ∧
      (turn.size ≤ 2 ^ 32 → (stamp turn.clock due).frame.toNat = due.time - turn.clock) := by
  have inside := of_decide_eq_true (List.mem_filter.mp member).2
  have stamped : (stamp turn.clock due).frame.toNat = (due.time - turn.clock) % 2 ^ 32 := UInt32.toNat_ofNat' ..
  exact ⟨rfl, stamped, fun small => stamped.trans (Nat.mod_eq_of_lt (by omega))⟩

/-- A queue conserves events and keeps time, over blocks of any lengths under any
delays, as long as no time leaves the range of counts. Nothing need be in flight when
the run begins. -/
theorem turns_conserve (queue : EventQueue Body) (early : ∀ due ∈ queue.pending, clock ≤ due.time)
    (proper : ∀ intake ∈ intakes, intake.Proper) (timely : Timely clock intakes) :
    ∃ log last, queue.turns clock intakes = .ok (log, last) ∧
      Accounts queue.pending clock intakes log last.pending ∧
      ∀ turn ∈ log, ∀ due ∈ turn.due (queue.pending ++ log.flatMap Turnover.taken),
        (stamp turn.clock due).body = due.event.body ∧
          (stamp turn.clock due).frame.toNat = (due.time - turn.clock) % 2 ^ 32 ∧
          (turn.size ≤ 2 ^ 32 → (stamp turn.clock due).frame.toNat = due.time - turn.clock) := by
  obtain ⟨⟨log, last⟩, answer⟩ := queue.turns_ok timely
  exact ⟨log, last, answer, accounts_of_turns answer early proper, fun _ _ _ member => stamp_due member⟩

def overtaking : List (Intake UInt32) :=
  [⟨⟨[⟨2, 7⟩], 2⟩, 5, 4⟩, ⟨⟨[⟨0, 8⟩], 2⟩, 1, 4⟩]

theorem turns_conserve_overtaking : (∀ intake ∈ overtaking, intake.Proper) ∧ Timely 0 overtaking ∧
    ∃ log last, (empty 2).turns 0 overtaking = .ok (log, last) ∧ Accounts [] 0 overtaking log last.pending ∧
      log.map (·.out.events) = [[], [⟨1, 8⟩, ⟨3, 7⟩]] := by
  have proper : ∀ intake ∈ overtaking, intake.Proper := by decide
  have timely : Timely 0 overtaking := by decide
  obtain ⟨log, last, answer, account, _⟩ := turns_conserve (empty 2) nofun proper timely
  refine ⟨proper, timely, log, last, answer, account, ?_⟩
  cases answer
  decide

/-- In a block too long for its frames to be counted in 32 bits, the stamp need not be
the time since the block's start. -/
theorem turns_wrap : ∃ intake : Intake UInt32, intake.Proper ∧ Timely 0 [intake] ∧
    ∃ turn last, (empty 1).turns 0 [intake] = .ok ([turn], last) ∧ turn.out.events = [⟨5, 0⟩] ∧
      ∃ due, turn.due turn.taken = [due] ∧ due.time - turn.clock = 4294967301 := by
  refine ⟨⟨⟨[⟨5, 0⟩], 1⟩, 4294967296, 8589934592⟩, by decide, by decide, _, _, rfl, ?_, _, rfl, ?_⟩
  · decide
  · decide

/-! ## Enough places -/

variable {most longest size : Nat}

/-- A block of one size brings few events, and none of them waits for long. -/
theorem process_sparse (answer : queue.process intake.list intake.delay clock intake.size = .ok (dropped, out, next))
    (allowed : intake.Allowed most longest size) (sparse : Sparse most size (clock + longest) queue.pending) :
    next.capacity = queue.capacity ∧ Sparse most size (clock + size + longest) next.pending ∧
      ∀ due ∈ next.pending, clock + size ≤ due.time := by
  obtain ⟨rfl, few, near, inside⟩ := allowed
  by_cases idle : queue.Idle intake.delay
  · cases (process_idle idle).symm.trans answer
    rw [idle.2]
    exact ⟨rfl, .nil, nofun⟩
  · obtain ⟨_, _, _, _, rfl⟩ := (process_eq_ok idle rfl).mp answer
    refine ⟨rfl, ?_, fun due member => of_decide_eq_true (List.mem_filter.mp member).2⟩
    rw [Nat.add_right_comm]
    refine (sparse.block ?_ fun due member => ?_).filter _
    · rw [List.length_map]
      exact Nat.le_trans (admitted_sublist ..).length_le few
    · obtain ⟨event, among, rfl⟩ := List.mem_map.mp member
      have := inside event ((admitted_sublist ..).subset among)
      rw [Event.time_dueAfter]
      omega

theorem seated_of_process (answer : queue.process intake.list intake.delay clock intake.size = .ok (dropped, out, next))
    (room : queue.pending.length + intake.list.events.length ≤ queue.capacity) :
    Turnover.Seated { intake with clock, before := queue, out, dropped } := by
  refine ⟨room, ?_⟩
  by_cases idle : queue.Idle intake.delay
  · exact .inl idle
  · obtain ⟨timely, _⟩ := (process_eq_ok idle rfl).mp answer
    rw [admitted, if_neg idle] at timely
    refine .inr ⟨_, takeAll_eq_ok.mpr ⟨timely, ?_, rfl⟩⟩
    simp only [EventQueue.room]
    omega

theorem seated_of_turns (answer : queue.turns clock intakes = .ok (log, last)) (positive : 0 < size)
    (allowed : ∀ intake ∈ intakes, intake.Allowed most longest size)
    (sparse : Sparse most size (clock + longest) queue.pending) (early : ∀ due ∈ queue.pending, clock ≤ due.time)
    (large : most * ((longest + size - 1) / size + 1) ≤ queue.capacity) : ∀ turn ∈ log, turn.Seated := by
  induction intakes generalizing queue clock log with
  | nil =>
    cases answer
    nofun
  | cons intake rest ih =>
    obtain ⟨here, others⟩ := List.forall_mem_cons.mp allowed
    obtain ⟨dropped, out, next, log, first, turns, rfl⟩ := turns_cons.mp answer
    obtain ⟨same, sparse', early'⟩ := process_sparse first here sparse
    -- All that is in flight is still to come, so it came in with the last few blocks.
    have held := sparse.length_filter_le positive
    rw [List.filter_eq_self.mpr fun due member => decide_eq_true (early due member)] at held
    have few := here.2.1
    rw [Nat.mul_succ] at large
    refine List.forall_mem_cons.mpr ⟨seated_of_process first (by omega), ?_⟩
    rw [here.1] at turns
    refine ih turns others sparse' early' ?_
    rw [same, Nat.mul_succ]
    exact large

theorem places_eq_ok {slots : Nat} (some : 0 < longest) (positive : 0 < size)
    (sized : places most longest size = .ok slots) : slots = most * ((longest + size - 1) / size + 1) := by
  rw [places, if_neg (by omega)] at sized
  simp only [Nat.max_eq_left positive, bind_eq_ok, Count.add_eq_ok, Count.mul_eq_ok] at sized
  obtain ⟨_, ⟨_, rfl⟩, _, rfl⟩ := sized
  rfl

/-- A queue with the places computed for it never refuses an event: the events of the
blocks that a delay can span and those of the block being taken in find a place, however
the delay changes. -/
theorem places_suffice {slots : Nat} (some : 0 < longest) (positive : 0 < size)
    (sized : places most longest size = .ok slots) (made : reserved slots = .ok queue)
    (allowed : ∀ intake ∈ intakes, intake.Allowed most longest size) :
    (Timely clock intakes → ∃ result, queue.turns clock intakes = .ok result) ∧
      ∀ log last, queue.turns clock intakes = .ok (log, last) → ∀ turn ∈ log, turn.Seated := by
  refine ⟨turns_ok queue, fun log last answer => ?_⟩
  simp only [reserved, bind_eq_ok, pure_eq_ok] at made
  obtain ⟨_, _, rfl⟩ := made
  exact seated_of_turns answer positive allowed .nil (fun _ member => absurd member List.not_mem_nil)
    (Nat.le_of_eq (places_eq_ok some positive sized).symm)

/-- A queue for one event a block and delays of up to five frames, in blocks of four. -/
theorem places_suffice_overtaking : ∃ slots queue, places 1 5 4 = .ok slots ∧ reserved slots = .ok queue ∧
    (∀ intake ∈ overtaking, intake.Allowed 1 5 4) ∧ Timely 0 overtaking ∧
    ∃ log last, queue.turns 0 overtaking = .ok (log, last) ∧ ∀ turn ∈ log, turn.Seated := by
  have allowed : ∀ intake ∈ overtaking, intake.Allowed 1 5 4 := by decide
  have timely : Timely 0 overtaking := by decide
  obtain ⟨answers, seated⟩ := places_suffice (by decide) (by decide) rfl rfl allowed
  obtain ⟨⟨log, last⟩, answer⟩ := answers timely
  exact ⟨_, _, rfl, rfl, allowed, timely, log, last, answer, seated log last answer⟩

end EventQueue

end Patchbay
