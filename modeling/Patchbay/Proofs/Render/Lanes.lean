import Patchbay.Proofs.Signal.Shape
import Patchbay.Render.Engine

/-! What rendering does to lanes.

A lane takes in a signal, which goes through the lane's delay line. Filling the
lines into a station and delaying its outputs make each lane take in one signal
and leave every other lane alone.
-/

set_option autoImplicit false

namespace Patchbay

structure Format.Furnished (format : Format) (slots : List (PortType × Nat)) (lanes : Array Lane) :
    Prop where
  size : lanes.size = slots.length
  shapes : ∀ {lane : Nat} {slot item}, slots[lane]? = some slot → lanes[lane]? = some item →
    format.Shapes slot.1 item.buffer
  holds : ∀ {lane : Nat} {slot item}, slots[lane]? = some slot → lanes[lane]? = some item →
    format.Holds slot.2 slot.1 item.delay

/-- No lane changed but those from `start` up to `stop`. -/
structure SameOutside (start stop : Nat) (before after : Array Lane) : Prop where
  size : after.size = before.size
  same : ∀ {lane : Nat}, lane < start ∨ stop ≤ lane → after[lane]? = before[lane]?

namespace SameOutside

variable {start stop : Nat} {before after : Array Lane}

theorem refl (start stop : Nat) (lanes : Array Lane) : SameOutside start stop lanes lanes :=
  ⟨rfl, fun _ => rfl⟩

theorem trans {low high : Nat} {last : Array Lane} (first : SameOutside start stop before after)
    (second : SameOutside low high after last) :
    SameOutside (min start low) (max stop high) before last := by
  refine ⟨second.size.trans first.size, ?_⟩
  intro lane outside
  rw [second.same (by omega), first.same (by omega)]

theorem widen {low high : Nat} (same : SameOutside start stop before after) (below : low ≤ start)
    (above : stop ≤ high) : SameOutside low high before after :=
  ⟨same.size, fun outside => same.same (by omega)⟩

end SameOutside

/-- A signal goes through a lane's delay line and is what the lane then carries. -/
def Takes (clock blockSize : Nat) (before after : Array Lane) (lane : Nat) (signal : SignalBuffer)
    (delay lost : Nat) : Prop :=
  ∃ old next, before[lane]? = some old ∧ after[lane]? = some next ∧
    old.delay.apply signal delay clock blockSize = .ok (lost, next.buffer, next.delay)

theorem Takes.congr {clock blockSize lane delay lost : Nat} {signal : SignalBuffer}
    {before after earlier later : Array Lane}
    (takes : Takes clock blockSize before after lane signal delay lost)
    (start : (earlier[lane]?).map (·.delay) = (before[lane]?).map (·.delay))
    (stop : later[lane]? = after[lane]?) :
    Takes clock blockSize earlier later lane signal delay lost := by
  obtain ⟨old, next, found, made, answer⟩ := takes
  rw [found, Option.map_some, Option.map_eq_some_iff] at start
  obtain ⟨first, there, same⟩ := start
  exact ⟨first, next, there, stop.trans made, by rw [same]; exact answer⟩

theorem Takes.unique {clock blockSize lane delay lost lost' : Nat} {signal : SignalBuffer}
    {before after before' after' : Array Lane} (takes : Takes clock blockSize before after lane signal delay lost)
    (also : Takes clock blockSize before' after' lane signal delay lost') (same : before'[lane]? = before[lane]?) :
    after'[lane]? = after[lane]? := by
  obtain ⟨old, ⟨buffer, line⟩, found, made, answer⟩ := takes
  obtain ⟨old', ⟨buffer', line'⟩, found', made', answer'⟩ := also
  rw [found', found] at same
  cases same
  rw [answer] at answer'
  cases answer'
  rw [made', made]

def Monitor.Counts (lost : Nat) (before after : Monitor) : Prop :=
  ∃ clamps, after = { before with clamps, overflows := before.overflows + lost }

namespace Monitor

theorem Counts.none (monitor : Monitor) : Counts 0 monitor monitor := ⟨monitor.clamps, rfl⟩

theorem Counts.trans {first second : Nat} {before middle after : Monitor}
    (here : Counts first before middle) (there : Counts second middle after) :
    Counts (first + second) before after := by
  obtain ⟨_, rfl⟩ := here
  obtain ⟨clamps, rfl⟩ := there
  exact ⟨clamps, by simp [Nat.add_assoc]⟩

theorem counts_overflow (monitor : Monitor) (lost : Nat) :
    Counts lost monitor (monitor.countOverflow lost) := ⟨monitor.clamps, rfl⟩

theorem clampDelay_spec (monitor : Monitor) (wanted capacity : Nat) :
    (monitor.clampDelay wanted capacity).1 = min wanted capacity ∧
      Counts 0 monitor (monitor.clampDelay wanted capacity).2 := by
  unfold clampDelay
  split
  · exact ⟨by omega, _, rfl⟩
  · exact ⟨by omega, .none monitor⟩

end Monitor

section Lanes

variable {format : Format} {slots : List (PortType × Nat)} {lanes : Array Lane}

theorem Format.Furnished.set (furnished : format.Furnished slots lanes) {lane : Nat}
    {slot : PortType × Nat} {item : Lane} (here : slots[lane]? = some slot)
    (shapes : format.Shapes slot.1 item.buffer) (holds : format.Holds slot.2 slot.1 item.delay) :
    format.Furnished slots (lanes.setIfInBounds lane item) := by
  have inside : ∀ {other : Nat} {found : Lane}, (lanes.setIfInBounds lane item)[other]? = some found →
      (other = lane ∧ found = item) ∨ lanes[other]? = some found := by
    intro other found there
    rw [Array.getElem?_setIfInBounds] at there
    split at there
    · split at there
      · cases there
        exact .inl ⟨‹lane = other›.symm, rfl⟩
      · cases there
    · exact .inr there
  refine ⟨by simpa using furnished.size, ?_, ?_⟩
  · intro other slot' found typed there
    rcases inside there with ⟨rfl, rfl⟩ | there
    · rw [here] at typed
      cases typed
      exact shapes
    · exact furnished.shapes typed there
  · intro other slot' found typed there
    rcases inside there with ⟨rfl, rfl⟩ | there
    · rw [here] at typed
      cases typed
      exact holds
    · exact furnished.holds typed there

theorem sameOutside_set (lanes : Array Lane) (lane : Nat) (item : Lane) :
    SameOutside lane (lane + 1) lanes (lanes.setIfInBounds lane item) := by
  refine ⟨Array.size_setIfInBounds, ?_⟩
  intro other outside
  rw [Array.getElem?_setIfInBounds, if_neg (by omega)]

theorem getElem?_set_self {lane : Nat} {old item : Lane} (found : lanes[lane]? = some old) :
    (lanes.setIfInBounds lane item)[lane]? = some item := by
  rw [Array.getElem?_setIfInBounds, if_pos rfl, if_pos (Array.getElem?_eq_some_iff.mp found).1]

end Lanes

/-! ## Lines -/

/-- The line's lane takes in its producer's signal, at what the link still lacks. -/
def RouteLine.Filled (links : Array Nat) (clock blockSize : Nat) (before after : Array Lane)
    (line : RouteLine) (lost : Nat) : Prop :=
  ∃ wanted source, links[line.link]? = some wanted ∧ after[line.source]? = some source ∧
    Takes clock blockSize before after line.lane source.buffer (min wanted line.capacity) lost

theorem RouteLine.Filled.congr {links : Array Nat} {clock blockSize lost : Nat} {line : RouteLine}
    {before after earlier later : Array Lane}
    (filled : line.Filled links clock blockSize before after lost)
    (start : earlier[line.lane]? = before[line.lane]?) (stop : later[line.lane]? = after[line.lane]?)
    (source : later[line.source]? = after[line.source]?) :
    line.Filled links clock blockSize earlier later lost := by
  obtain ⟨wanted, signal, atLink, atSource, takes⟩ := filled
  exact ⟨wanted, signal, atLink, source.trans atSource, takes.congr (by rw [start]) stop⟩

theorem RouteLine.Filled.unique {links : Array Nat} {clock blockSize lost lost' : Nat} {line : RouteLine}
    {before after before' after' : Array Lane} (filled : line.Filled links clock blockSize before after lost)
    (also : line.Filled links clock blockSize before' after' lost') (same : before'[line.lane]? = before[line.lane]?)
    (source : after'[line.source]? = after[line.source]?) : after'[line.lane]? = after[line.lane]? := by
  obtain ⟨wanted, signal, atLink, atSource, takes⟩ := filled
  obtain ⟨wanted', signal', atLink', atSource', takes'⟩ := also
  rw [atLink] at atLink'
  cases atLink'
  rw [atSource', atSource] at source
  cases source
  exact takes.unique takes' same

namespace Progress

variable {ν : Type} {format : Format} {slots : List (PortType × Nat)} {clock blockSize : Nat}
  {state next : Progress ν}

theorem fillLine_spec (furnished : format.Furnished slots state.lanes) {line : RouteLine} {room : Nat}
    (slot : slots[line.lane]? = some (line.type, line.capacity))
    (sourceSlot : slots[line.source]? = some (line.type, room))
    (answer : state.fillLine clock blockSize line = .ok next) :
    next.nodes = state.nodes ∧ next.space = state.space ∧
      SameOutside line.lane (line.lane + 1) state.lanes next.lanes ∧
      format.Furnished slots next.lanes ∧ ∃ lost,
        line.Filled state.monitor.latencies.links clock blockSize state.lanes next.lanes lost ∧
          state.monitor.Counts lost next.monitor := by
  simp only [fillLine, bind_eq_ok, itemAt_eq_ok] at answer
  obtain ⟨wanted, atLink, lane, atLane, answer⟩ := answer
  obtain ⟨clamped, counted⟩ := state.monitor.clampDelay_spec wanted line.capacity
  split at answer
  · cases answer
  -- The guard that the source stands before the line has passed.
  have before : line.source < line.lane := by omega
  simp only [bind_eq_ok, itemAt_eq_ok, pure_eq_ok, Prod.exists] at answer
  obtain ⟨source, atSource, dropped, copied, copy, spilled, buffer, queue, applied, rfl⟩ := answer
  have shape := furnished.shapes sourceSlot atSource
  rw [(furnished.shapes slot atLane).copyFrom_eq shape] at copy
  cases copy
  rw [clamped] at applied
  obtain ⟨shapes, holds⟩ := (furnished.holds slot atLane).apply shape (Nat.min_le_right _ _) applied
  have outside := sameOutside_set state.lanes line.lane ⟨buffer, queue⟩
  refine ⟨rfl, rfl, outside, furnished.set slot shapes holds, spilled, ⟨wanted, source, atLink, ?_, ?_⟩, ?_⟩
  · exact (outside.same (.inl before)).trans atSource
  · exact ⟨lane, ⟨buffer, queue⟩, atLane, getElem?_set_self atLane, applied⟩
  · simpa using counted.trans (Monitor.counts_overflow _ spilled)

/-- All lines into a station are filled, each from a lane before the station's. -/
theorem fillLines_spec {lines : List RouteLine} {first : Nat} (start : Nat) (below : first ≤ start)
    (furnished : format.Furnished slots state.lanes)
    (numbers : lines.map (·.lane) = List.range' start lines.length)
    (slotOf : ∀ line ∈ lines, slots[line.lane]? = some (line.type, line.capacity))
    (sourceOf : ∀ line ∈ lines, line.source < first ∧
      ∃ room, slots[line.source]? = some (line.type, room))
    (answer : lines.foldlM (fillLine clock blockSize) state = .ok next) :
    next.nodes = state.nodes ∧ next.space = state.space ∧
      SameOutside start (start + lines.length) state.lanes next.lanes ∧
      format.Furnished slots next.lanes ∧ ∃ losses,
        List.Forall₂ (RouteLine.Filled state.monitor.latencies.links clock blockSize state.lanes
          next.lanes) lines losses ∧ state.monitor.Counts losses.sum next.monitor := by
  induction lines generalizing start state with
  | nil =>
    cases answer
    exact ⟨rfl, rfl, .refl _ _ _, furnished, [], .nil, .none _⟩
  | cons line rest ih =>
    simp only [List.foldlM_cons, bind_eq_ok] at answer
    obtain ⟨middle, filled, answer⟩ := answer
    rw [List.map_cons, List.length_cons, List.range'_succ, List.cons.injEq] at numbers
    obtain ⟨atStart, numbers⟩ := numbers
    obtain ⟨before, room, sourceSlot⟩ := sourceOf line List.mem_cons_self
    obtain ⟨nodes, space, outside, furnished, lost, filled, counts⟩ :=
      fillLine_spec furnished (slotOf line List.mem_cons_self) sourceSlot filled
    have links : middle.monitor.latencies.links = state.monitor.latencies.links := by
      obtain ⟨_, same⟩ := counts
      rw [same]
    obtain ⟨nodes', space', outside', furnished', losses, fills, counts'⟩ :=
      ih (start + 1) (by omega) furnished numbers
        (fun other member => slotOf other (List.mem_cons_of_mem _ member))
        (fun other member => sourceOf other (List.mem_cons_of_mem _ member)) answer
    rw [atStart] at outside
    refine ⟨nodes'.trans nodes, space'.trans space, (outside.trans outside').widen (by omega) (by
      rw [List.length_cons]
      omega), furnished', lost :: losses, ?_, by simpa using counts.trans counts'⟩
    refine .cons ?_ ?_
    · exact filled.congr rfl (outside'.same (.inl (by omega))) (outside'.same (.inl (by omega)))
    · -- The later lines take in what they did, for the first touched none of their lanes.
      have later : ∀ other ∈ rest, start + 1 ≤ other.lane := by
        intro other member
        have numbered : other.lane ∈ rest.map (·.lane) := List.mem_map.mpr ⟨other, member, rfl⟩
        rw [numbers, List.mem_range'_1] at numbered
        exact numbered.1
      rw [links] at fills
      refine ((List.forall₂_and_left _ _).mpr ⟨later, fills⟩).imp ?_
      rintro other lost' ⟨past, filled⟩
      exact filled.congr (outside.same (.inr past)).symm rfl rfl

end Progress

end Patchbay
