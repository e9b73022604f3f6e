import Patchbay.Delay.Queue
import Patchbay.Proofs.Checked
import Patchbay.Proofs.Signal.Sorting

/-! What the event queue lets through.

Of a block's events as many are taken in as there are free places, and of those in
flight as many come out as are due before the block ends and fit the list. A queue
with room for all of them refuses none.
-/

set_option autoImplicit false

namespace Patchbay

variable {Body : Type} {delay clock size : Nat}

/-! ## Bounded lists -/

theorem EventQueue.pushAll_eq_append (list : EventList Body) (events : List (Event Body)) :
    pushAll list events = list.append events := by
  induction events generalizing list with
  | nil => simp [pushAll, EventList.append]
  | cons event rest ih =>
    unfold pushAll EventList.push
    dsimp only
    split
    · rename_i room
      rw [ih]
      have places : list.capacity - list.events.length =
          list.capacity - (list.events ++ [event]).length + 1 := by
        rw [List.length_append, List.length_singleton]
        omega
      simp [EventList.append, places, List.take_succ_cons]
    · rename_i full
      rw [ih]
      have none : list.capacity - list.events.length = 0 := by omega
      simp [EventList.append, none, Nat.add_comm]

/-! ## One block -/

def Event.dueAfter (clock delay : Nat) (event : Event Body) : Due Body :=
  ⟨clock + event.frame.toNat + delay, event⟩

@[simp] theorem Event.time_dueAfter (clock delay : Nat) (event : Event Body) :
    (event.dueAfter clock delay).time = clock + event.frame.toNat + delay := rfl

@[simp] theorem Event.event_dueAfter (clock delay : Nat) (event : Event Body) :
    (event.dueAfter clock delay).event = event := rfl

theorem EventQueue.map_stamp_dueAfter_zero (clock : Nat) (events : List (Event Body)) :
    (events.map (·.dueAfter clock 0)).map (stamp clock) = events := by
  rw [List.map_map]
  apply List.map_id''
  intro event
  simp [stamp, Event.dueAfter, Event.atFrame]

namespace EventQueue

variable {queue next : EventQueue Body} {list out : EventList Body} {events : List (Event Body)} {dropped : Nat}

def room (queue : EventQueue Body) : Nat := queue.capacity - queue.pending.length

/-- Nothing is delayed, and nothing was. -/
def Idle (queue : EventQueue Body) (delay : Nat) : Prop := delay = 0 ∧ queue.pending = []

instance (queue : EventQueue Body) (delay : Nat) : Decidable (queue.Idle delay) :=
  inferInstanceAs (Decidable (delay = 0 ∧ queue.pending = []))

/-- The events of a block that are not refused: as many as find a place, and all of
them when the queue is idle. -/
def admitted (queue : EventQueue Body) (delay : Nat) (events : List (Event Body)) : List (Event Body) :=
  if queue.Idle delay then events else events.take queue.room

theorem admitted_sublist (queue : EventQueue Body) (delay : Nat) (events : List (Event Body)) :
    (queue.admitted delay events).Sublist events := by
  unfold admitted
  split
  · exact .refl _
  · exact List.take_sublist _ _

theorem take_eq_ok {event : Event Body} (some : 0 < queue.room) :
    queue.take event delay clock = .ok (dropped, next) ↔
      clock + event.frame.toNat + delay < Count.limit ∧ dropped = 0 ∧
        next = { queue with pending := queue.pending ++ [event.dueAfter clock delay] } := by
  unfold room at some
  simp only [take, if_pos (show queue.pending.length < queue.capacity by omega), bind_eq_ok, pure_eq_ok,
    Prod.mk.injEq, Count.add_eq_ok]
  constructor
  · rintro ⟨_, ⟨_, rfl⟩, _, ⟨small, rfl⟩, rfl, rfl⟩
    exact ⟨small, rfl, rfl⟩
  · rintro ⟨small, rfl, rfl⟩
    exact ⟨_, ⟨by omega, rfl⟩, _, ⟨small, rfl⟩, rfl, rfl⟩

theorem room_concat (queue : EventQueue Body) (due : Due Body) :
    room { queue with pending := queue.pending ++ [due] } = queue.room - 1 := by
  simp only [room, List.length_append, List.length_singleton]
  omega

/-- As many events are taken in as there are free places, and the others are counted. -/
theorem takeAll_eq_ok : queue.takeAll delay clock events = .ok (dropped, next) ↔
    (∀ event ∈ events.take queue.room, clock + event.frame.toNat + delay < Count.limit) ∧
      dropped = events.length - queue.room ∧
      next = { queue with pending := queue.pending ++ (events.take queue.room).map (·.dueAfter clock delay) } := by
  induction events generalizing queue dropped next with
  | nil =>
    rw [takeAll, Except.ok.injEq, Prod.mk.injEq, eq_comm, eq_comm (a := queue)]
    simp
  | cons event rest ih =>
    simp only [takeAll, bind_eq_ok, pure_eq_ok, Prod.exists, Prod.mk.injEq]
    -- A queue that is full here stays full, so the times of the rest do not matter.
    by_cases some : 0 < queue.room
    · obtain ⟨room, more⟩ := Nat.exists_eq_add_of_lt some
      rw [Nat.zero_add] at more
      simp only [take_eq_ok some, ih, more, List.take_succ_cons, List.forall_mem_cons, List.length_cons]
      constructor
      · rintro ⟨_, _, ⟨here, rfl, rfl⟩, _, _, ⟨small, rfl, rfl⟩, rfl, rfl⟩
        rw [room_concat, more, Nat.add_sub_cancel] at small ⊢
        exact ⟨⟨here, small⟩, by omega, by simp⟩
      · rintro ⟨⟨here, small⟩, rfl, rfl⟩
        refine ⟨0, _, ⟨here, rfl, rfl⟩, _, _, ⟨?_, rfl, rfl⟩, ?_, ?_⟩
        · rwa [room_concat, more, Nat.add_sub_cancel]
        · rw [room_concat, more]
          omega
        · rw [room_concat, more]
          simp
    · have full : queue.take event delay clock = .ok (1, queue) := by
        unfold room at some
        rw [take, if_neg (by omega)]
      have none : queue.room = 0 := by omega
      simp only [full, Except.ok.injEq, Prod.mk.injEq, ih, none, List.take_zero, List.length_cons, Nat.sub_zero]
      constructor
      · rintro ⟨_, _, ⟨rfl, rfl⟩, _, _, ⟨small, rfl, rfl⟩, rfl, rfl⟩
        rw [none, List.take_zero] at small ⊢
        exact ⟨small, by omega, rfl⟩
      · rintro ⟨small, rfl, rfl⟩
        exact ⟨1, queue, ⟨rfl, rfl⟩, _, _, ⟨by simp [none], rfl, rfl⟩, by omega, by simp [none]⟩

theorem process_idle (idle : queue.Idle delay) : queue.process list delay clock size = .ok (0, list, queue) :=
  if_pos idle

/-- A block in which the queue is not idle: what finds a place is taken in, what is due
comes out as far as the list takes it, and the rest stays. -/
theorem process_eq_ok (busy : ¬ queue.Idle delay) {all : List (Due Body)}
    (allEq : all = queue.pending ++ (queue.admitted delay list.events).map (·.dueAfter clock delay)) :
    queue.process list delay clock size = .ok (dropped, out, next) ↔
      (∀ event ∈ queue.admitted delay list.events, clock + event.frame.toNat + delay < Count.limit) ∧
      clock + size < Count.limit ∧
      dropped = (list.events.length - (queue.admitted delay list.events).length) +
        ((all.filter (·.time < clock + size)).length - list.capacity) ∧
      out = (EventList.mk (((all.filter (·.time < clock + size)).map (stamp clock)).take list.capacity)
        list.capacity).sort ∧
      next = { queue with pending := all.filter (clock + size ≤ ·.time) } := by
  rw [admitted, if_neg busy] at allEq ⊢
  rw [process, if_neg (show ¬ (delay = 0 ∧ queue.pending = []) from busy)]
  simp only [bind_eq_ok, pure_eq_ok, Prod.exists, Prod.mk.injEq, pushAll_eq_append, Count.add_eq_ok, takeAll_eq_ok]
  constructor
  · rintro ⟨_, _, ⟨small, rfl, rfl⟩, _, ⟨stop, rfl⟩, rfl, rfl, rfl⟩
    refine ⟨small, stop, ?_, ?_, ?_⟩
    · simp [EventList.append, EventList.clear, allEq]
      omega
    · simp [EventList.append, EventList.clear, allEq]
    · rw [allEq]
  · rintro ⟨small, stop, rfl, rfl, rfl⟩
    refine ⟨_, _, ⟨small, rfl, rfl⟩, _, ⟨stop, rfl⟩, ?_, ?_, ?_⟩
    · simp [EventList.append, EventList.clear, allEq]
      omega
    · simp [EventList.append, EventList.clear, allEq]
    · rw [allEq]

theorem process_shape (answer : queue.process list delay clock size = .ok (dropped, out, next))
    (few : list.events.length ≤ list.capacity) :
    out.capacity = list.capacity ∧ next.capacity = queue.capacity ∧ out.events.length ≤ list.capacity := by
  by_cases idle : queue.Idle delay
  · cases (process_idle idle).symm.trans answer
    exact ⟨rfl, rfl, few⟩
  · obtain ⟨_, _, _, rfl, rfl⟩ := (process_eq_ok idle rfl).mp answer
    refine ⟨rfl, rfl, ?_⟩
    rw [(EventList.sort_same _).perm.length_eq]
    exact List.length_take_le _ _

def Within (queue : EventQueue Body) : Prop := queue.pending.length ≤ queue.capacity

theorem takeAll_within (answer : queue.takeAll delay clock events = .ok (dropped, next)) :
    next.capacity = queue.capacity ∧ (queue.Within → next.Within) := by
  obtain ⟨_, _, rfl⟩ := takeAll_eq_ok.mp answer
  refine ⟨rfl, fun within => ?_⟩
  simp only [Within, room, List.length_append, List.length_map, List.length_take] at within ⊢
  omega

theorem process_within (answer : queue.process list delay clock size = .ok (dropped, out, next))
    (within : queue.Within) : next.Within := by
  by_cases idle : queue.Idle delay
  · cases (process_idle idle).symm.trans answer
    exact within
  · obtain ⟨_, _, _, _, rfl⟩ := (process_eq_ok idle rfl).mp answer
    refine Nat.le_trans (List.length_filter_le _ _) ?_
    simp only [Within, admitted, if_neg idle, room, List.length_append, List.length_map, List.length_take] at within ⊢
    omega

theorem process_ok (queue : EventQueue Body) (list : EventList Body)
    (timely : ∀ event ∈ list.events, clock + event.frame.toNat + delay < Count.limit)
    (stop : clock + size < Count.limit) : ∃ result, queue.process list delay clock size = .ok result := by
  by_cases idle : queue.Idle delay
  · exact ⟨_, process_idle idle⟩
  · refine ⟨(_, _, _), (process_eq_ok idle rfl).mpr ⟨fun event member => ?_, stop, rfl, rfl, rfl⟩⟩
    exact timely event ((admitted_sublist queue delay list.events).subset member)

theorem process_turnover (answer : queue.process list delay clock size = .ok (dropped, out, next))
    (inside : ∀ event ∈ list.events, event.frame.toNat < size) (few : list.events.length ≤ list.capacity)
    {all : List (Due Body)}
    (allEq : all = queue.pending ++ (queue.admitted delay list.events).map (·.dueAfter clock delay)) :
    next = { queue with pending := all.filter (clock + size ≤ ·.time) } ∧
      dropped = (list.events.length - (queue.admitted delay list.events).length) +
        ((all.filter (·.time < clock + size)).length - list.capacity) ∧
      SameBy Event.frame out.events
        (((all.filter (·.time < clock + size)).map (stamp clock)).take list.capacity) ∧
      (¬ queue.Idle delay → out.isSorted = true) := by
  by_cases idle : queue.Idle delay
  -- Without a delay and with nothing on the way, the list is left as it is, not even sorted.
  · rw [admitted, if_pos idle] at allEq ⊢
    rw [process_idle idle] at answer
    cases answer
    obtain ⟨rfl, empty⟩ := idle
    rw [empty, List.nil_append] at allEq
    have soon : ∀ due ∈ all, due.time < clock + size := by
      intro due member
      obtain ⟨event, among, rfl⟩ := List.mem_map.mp (allEq ▸ member)
      have := inside event among
      rw [Event.time_dueAfter]
      omega
    have now : all.filter (·.time < clock + size) = all :=
      List.filter_eq_self.mpr fun due member => decide_eq_true (soon due member)
    have later : all.filter (clock + size ≤ ·.time) = [] := by
      refine List.filter_eq_nil_iff.mpr fun due member => ?_
      rw [decide_eq_true_eq, Nat.not_le]
      exact soon due member
    have same : all.map (stamp clock) = list.events := allEq ▸ map_stamp_dueAfter_zero clock list.events
    have count : all.length = list.events.length := by rw [← same, List.length_map]
    refine ⟨?_, ?_, ?_, fun busy => absurd ⟨rfl, empty⟩ busy⟩
    · rw [later, ← empty]
    · rw [now]
      omega
    · rw [now, same, List.take_of_length_le few]
      exact .of_eq rfl
  · obtain ⟨_, _, rfl, rfl, rfl⟩ := (process_eq_ok idle allEq).mp answer
    exact ⟨rfl, rfl, EventList.sort_same _, fun _ => EventList.isSorted_sort _⟩

theorem admitted_eq_self (room : queue.Idle delay ∨ queue.pending.length + events.length ≤ queue.capacity) :
    queue.admitted delay events = events := by
  unfold admitted EventQueue.room
  split
  · rfl
  · rename_i busy
    have places := room.resolve_left busy
    exact List.take_of_length_le (by omega)

/-- A queue with room gives out what is due before the block ends, as much as the
list takes, and keeps the rest. -/
theorem process_eq (answer : queue.process list delay clock size = .ok (dropped, out, next))
    (room : queue.Idle delay ∨ queue.pending.length + list.events.length ≤ queue.capacity)
    (inside : ∀ event ∈ list.events, event.frame.toNat < size) (few : list.events.length ≤ list.capacity)
    {all : List (Due Body)} (allEq : all = queue.pending ++ list.events.map (·.dueAfter clock delay)) :
    next.pending = all.filter (clock + size ≤ ·.time) ∧
      dropped = (all.filter (·.time < clock + size)).length - list.capacity ∧
      SameBy Event.frame out.events
        (((all.filter (·.time < clock + size)).map (stamp clock)).take list.capacity) := by
  have admits := admitted_eq_self room
  obtain ⟨rfl, rfl, released, _⟩ := process_turnover answer inside few (admits ▸ allEq)
  rw [admits, Nat.sub_self, Nat.zero_add]
  exact ⟨rfl, rfl, released⟩

end EventQueue

/-! ## How many are in flight -/

/-- Nothing is due at the horizon or behind it, and from any time before it on at most
`most` items are due for each block of `size` frames that it takes to get there. -/
def Sparse (most size horizon : Nat) (items : List (Due Body)) : Prop :=
  ∀ bound spans, horizon ≤ bound + spans * size → (items.filter (bound ≤ ·.time)).length ≤ most * spans

namespace Sparse

variable {most horizon : Nat} {items newest : List (Due Body)}

theorem nil : Sparse most size horizon ([] : List (Due Body)) := fun _ _ _ => Nat.zero_le _

theorem filter (sparse : Sparse most size horizon items) (keep : Due Body → Bool) :
    Sparse most size horizon (items.filter keep) := fun bound spans near =>
  Nat.le_trans (List.filter_sublist.filter _).length_le (sparse bound spans near)

theorem block (sparse : Sparse most size horizon items) (few : newest.length ≤ most)
    (before : ∀ due ∈ newest, due.time < horizon + size) :
    Sparse most size (horizon + size) (items ++ newest) := by
  intro bound spans near
  rw [List.filter_append, List.length_append]
  -- With no span left, the bound is behind all that is new. Otherwise what is new fills one span.
  cases spans with
  | zero =>
    have earlier := sparse bound 0 (by omega)
    have none : newest.filter (bound ≤ ·.time) = [] := by
      refine List.filter_eq_nil_iff.mpr fun due member => ?_
      have := before due member
      rw [decide_eq_true_eq]
      omega
    rw [none]
    exact earlier
  | succ spans =>
    rw [Nat.succ_mul] at near
    have earlier := sparse bound spans (by omega)
    have here := List.length_filter_le (fun due => decide (bound ≤ due.time)) newest
    rw [Nat.mul_succ]
    omega

/-- Blocks that a delay can span bring no more than their share. -/
theorem length_filter_le {delay : Nat} (sparse : Sparse most size (clock + delay) items) (positive : 0 < size) :
    (items.filter (clock ≤ ·.time)).length ≤ most * ((delay + size - 1) / size) := by
  refine sparse clock _ ?_
  have := Nat.lt_div_mul_add positive (a := delay + size - 1)
  omega

end Sparse

end Patchbay
