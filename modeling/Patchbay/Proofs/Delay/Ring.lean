import Mathlib.Data.List.Basic
import Mathlib.Data.Nat.ModEq
import Patchbay.Delay.Ring
import Patchbay.Proofs.Checked

/-! What the sample ring plays back.

A ring records everything that went through it, as far back as its capacity. At
a delay within the capacity a frame comes out as many frames late, whatever the
delays before were, and nothing comes out before the first frame.
-/

set_option autoImplicit false

namespace Patchbay

def earlierBy {α : Type} (delay : Nat) (items : List α) (index : Nat) : Option α :=
  if delay ≤ index then items[index - delay]? else none

theorem earlierBy_append {α : Type} {delay index : Nat} {items : List α} (more : List α)
    (inside : index < items.length) :
    earlierBy delay (items ++ more) index = earlierBy delay items index := by
  unfold earlierBy
  split
  · exact List.getElem?_append_left (by omega)
  · rfl

theorem earlierBy_congr {α : Type} {delay index count : Nat} {items others : List α}
    (begins : others.take count = items.take count) (inside : index < count) :
    earlierBy delay others index = earlierBy delay items index := by
  unfold earlierBy
  split
  · rw [← List.getElem?_take_of_lt (show index - delay < count by omega), begins, List.getElem?_take_of_lt (by omega)]
  · rfl

namespace Ring

variable {Frame : Type} {ring : Ring Frame} {history : List Frame}

/-- The cells hold the end of a history. -/
structure Records (ring : Ring Frame) (history : List Frame) : Prop where
  write : ring.write = history.length % ring.capacity
  size : ring.cells.size = min history.length ring.capacity
  cell : ∀ index < history.length, history.length ≤ index + ring.capacity →
    ring.cells[index % ring.capacity]? = history[index]?

theorem Records.empty (capacity : Nat) : Records ({ capacity } : Ring Frame) [] := by
  refine ⟨?_, ?_, ?_⟩
  · simp
  · simp
  · intro index inside
    cases inside

theorem mod_ne_of_near {index count capacity : Nat} (before : index < count)
    (near : count < index + capacity) : index % capacity ≠ count % capacity := by
  intro same
  have divides : capacity ∣ count - index := (Nat.modEq_iff_dvd' (by omega)).mp same
  have := Nat.le_of_dvd (by omega) divides
  omega

theorem Records.step_fst (records : ring.Records history) {delay : Nat} (fits : delay ≤ ring.capacity)
    (frame : Frame) :
    (ring.step delay frame).1 = earlierBy delay (history ++ [frame]) history.length := by
  unfold step earlierBy
  dsimp only
  by_cases instant : delay = 0
  · subst instant
    simp
  rw [if_neg instant, records.write]
  by_cases reached : delay ≤ history.length
  · -- The read position is that of the frame `delay` before the end.
    have position : (history.length % ring.capacity + ring.capacity - delay) % ring.capacity =
        (history.length - delay) % ring.capacity := by
      calc (history.length % ring.capacity + ring.capacity - delay) % ring.capacity
          = (history.length % ring.capacity + (ring.capacity - delay)) % ring.capacity := by
            rw [Nat.add_sub_assoc fits]
        _ = (history.length + (ring.capacity - delay)) % ring.capacity := Nat.mod_add_mod _ _ _
        _ = (history.length - delay + ring.capacity) % ring.capacity := by
            congr 1
            omega
        _ = (history.length - delay) % ring.capacity := Nat.add_mod_right _ _
    rw [position, records.cell _ (by omega) (by omega), if_pos reached,
      List.getElem?_append_left (by omega)]
  · rw [if_neg reached, Nat.mod_eq_of_lt (show history.length < ring.capacity by omega),
      Nat.mod_eq_of_lt (by omega)]
    have := records.size
    exact Array.getElem?_eq_none (by omega)

theorem Records.step_snd (records : ring.Records history) (positive : 0 < ring.capacity) (delay : Nat)
    (frame : Frame) : (ring.step delay frame).2.Records (history ++ [frame]) := by
  obtain ⟨write, size, cell⟩ := records
  have inside : history.length % ring.capacity < ring.capacity := Nat.mod_lt _ positive
  unfold step
  -- A full ring overwrites its oldest cell, any other one grows by a cell.
  by_cases full : ring.capacity ≤ history.length
  · have written : ring.write < ring.cells.size := by omega
    simp only [if_pos written]
    refine ⟨?_, ?_, ?_⟩
    · rw [List.length_append, List.length_singleton, write, Nat.mod_add_mod]
    · rw [Array.size_setIfInBounds, List.length_append, List.length_singleton]
      dsimp only
      omega
    · intro index before near
      rw [List.length_append, List.length_singleton] at before near
      dsimp only at near ⊢
      rw [Array.getElem?_setIfInBounds, write]
      by_cases last : index = history.length
      · subst last
        rw [if_pos rfl, if_pos (by omega), List.getElem?_concat_length]
      · rw [if_neg (Ne.symm (mod_ne_of_near (by omega) (by omega))), cell index (by omega) (by omega),
          List.getElem?_append_left (by omega)]
  · have fresh : history.length % ring.capacity = history.length := Nat.mod_eq_of_lt (by omega)
    have unwritten : ¬ ring.write < ring.cells.size := by omega
    simp only [if_neg unwritten]
    refine ⟨?_, ?_, ?_⟩
    · rw [List.length_append, List.length_singleton, write, Nat.mod_add_mod]
    · rw [Array.size_push, List.length_append, List.length_singleton]
      dsimp only
      omega
    · intro index before near
      rw [List.length_append, List.length_singleton] at before near
      dsimp only at near ⊢
      rw [Nat.mod_eq_of_lt (show index < ring.capacity by omega), Array.getElem?_push]
      have count : ring.cells.size = history.length := by omega
      by_cases last : index = history.length
      · subst last
        rw [if_pos count.symm, List.getElem?_concat_length]
      · have at_ := cell index (by omega) (by omega)
        rw [Nat.mod_eq_of_lt (show index < ring.capacity by omega)] at at_
        rw [if_neg (by omega), at_, List.getElem?_append_left (by omega)]

@[simp] theorem step_capacity (ring : Ring Frame) (delay : Nat) (frame : Frame) :
    (ring.step delay frame).2.capacity = ring.capacity := rfl

/-- One more frame in a run, whose answers are kept last first. -/
def advance (delay : Nat) (passed : List (Option Frame) × Ring Frame) (frame : Frame) :
    List (Option Frame) × Ring Frame :=
  ((passed.2.step delay frame).1 :: passed.1, (passed.2.step delay frame).2)

theorem run_eq_foldl (ring : Ring Frame) (delay : Nat) (frames : List Frame) :
    ring.run delay frames = ((frames.foldl (advance delay) ([], ring)).1.reverse,
      (frames.foldl (advance delay) ([], ring)).2) := rfl

theorem foldl_advance (delay : Nat) (frames : List Frame) (ring : Ring Frame) (done : List (Option Frame)) :
    frames.foldl (advance delay) (done, ring) = ((frames.foldl (advance delay) ([], ring)).1 ++ done,
      (frames.foldl (advance delay) ([], ring)).2) := by
  induction frames generalizing ring done with
  | nil => rfl
  | cons frame rest ih =>
    simp only [List.foldl_cons, advance]
    rw [ih, ih _ [_], List.append_assoc, List.singleton_append]

@[simp] theorem run_nil (ring : Ring Frame) (delay : Nat) : ring.run delay [] = ([], ring) := rfl

theorem run_cons (ring : Ring Frame) (delay : Nat) (frame : Frame) (rest : List Frame) :
    ring.run delay (frame :: rest) = ((ring.step delay frame).1 :: ((ring.step delay frame).2.run delay rest).1,
      ((ring.step delay frame).2.run delay rest).2) := by
  rw [run_eq_foldl, run_eq_foldl, List.foldl_cons, advance, foldl_advance, List.reverse_append,
    List.reverse_singleton, List.singleton_append]

theorem run_capacity (ring : Ring Frame) (delay : Nat) (frames : List Frame) :
    (ring.run delay frames).2.capacity = ring.capacity := by
  induction frames generalizing ring with
  | nil => rfl
  | cons frame rest ih =>
    rw [run_cons]
    exact (ih _).trans (step_capacity ring delay frame)

/-- Frames that go through come out late by the delay. -/
theorem Records.run (records : ring.Records history) (positive : 0 < ring.capacity) {delay : Nat}
    (fits : delay ≤ ring.capacity) (frames : List Frame) :
    (ring.run delay frames).1 = (List.range frames.length).map (fun index =>
        earlierBy delay (history ++ frames) (history.length + index)) ∧
      (ring.run delay frames).2.Records (history ++ frames) := by
  induction frames generalizing ring history with
  | nil => exact ⟨rfl, by simpa using records⟩
  | cons frame rest ih =>
    obtain ⟨answer, recorded⟩ := ih (records.step_snd positive delay frame) positive fits
    rw [run_cons]
    refine ⟨?_, by simpa using recorded⟩
    -- The first frame's answer does not depend on the frames behind it.
    have first : (ring.step delay frame).1 = earlierBy delay (history ++ frame :: rest) history.length := by
      rw [records.step_fst fits frame, ← earlierBy_append rest (by simp)]
      simp
    rw [answer, first, List.length_cons, List.range_succ_eq_map]
    simp [Function.comp_def, Nat.add_assoc, Nat.add_comm 1]

end Ring

/-! ## Frames of a block -/

def framesOf (channels : Nat) (samples : Array Sample) : List (Array Sample) :=
  (splitFrames channels samples).1

section Frames

variable {channels count : Nat} {samples : Array Sample}

theorem framesOf_eq (positive : 0 < channels) (size : samples.size = count * channels) :
    framesOf channels samples = (List.range count).map fun frame =>
      samples.extract (frame * channels) ((frame + 1) * channels) := by
  simp only [framesOf, splitFrames, size, Nat.mul_div_cancel _ positive]

theorem length_framesOf (positive : 0 < channels) (size : samples.size = count * channels) :
    (framesOf channels samples).length = count := by
  simp [framesOf_eq positive size]

theorem size_of_mem_framesOf (positive : 0 < channels) (size : samples.size = count * channels)
    {frame : Array Sample} (member : frame ∈ framesOf channels samples) : frame.size = channels := by
  rw [framesOf_eq positive size] at member
  obtain ⟨index, inside, rfl⟩ := List.mem_map.mp member
  have within : index + 1 ≤ count := List.mem_range.mp inside
  have := Nat.mul_le_mul_right channels within
  rw [Array.size_extract, size, Nat.succ_mul] at *
  omega

theorem joinFrames_cons (first : Array Sample) (rest : List (Array Sample)) :
    joinFrames (first :: rest) #[] = first ++ joinFrames rest #[] := by
  suffices joined : ∀ (frames : List (Array Sample)) (start : Array Sample),
      frames.foldl (· ++ ·) start = start ++ frames.foldl (· ++ ·) #[] by
    simp only [joinFrames, Array.append_empty, List.foldl_cons, Array.empty_append]
    exact joined rest first
  intro frames
  induction frames with
  | nil => simp
  | cons second others ih =>
    intro start
    rw [List.foldl_cons, List.foldl_cons, ih (start ++ second), ih (#[] ++ second)]
    simp [Array.append_assoc]

theorem size_joinFrames {frames : List (Array Sample)} (sizes : ∀ frame ∈ frames, frame.size = channels) :
    (joinFrames frames #[]).size = frames.length * channels := by
  induction frames with
  | nil => simp [joinFrames]
  | cons first rest ih =>
    have later := ih fun frame member => sizes frame (List.mem_cons_of_mem _ member)
    rw [joinFrames_cons, Array.size_append, later, sizes first List.mem_cons_self, List.length_cons,
      Nat.succ_mul, Nat.add_comm]

theorem extract_joinFrames {frames : List (Array Sample)}
    (sizes : ∀ frame ∈ frames, frame.size = channels) {index : Nat} {frame : Array Sample}
    (found : frames[index]? = some frame) :
    (joinFrames frames #[]).extract (index * channels) ((index + 1) * channels) = frame := by
  induction frames generalizing index with
  | nil => simp at found
  | cons first rest ih =>
    have size := sizes first List.mem_cons_self
    have later := fun frame member => sizes frame (List.mem_cons_of_mem first member)
    rw [joinFrames_cons, Array.extract_append, size]
    cases index with
    | zero =>
      obtain rfl : first = frame := by simpa using found
      simp [← size]
    | succ index =>
      have outside : first.extract ((index + 1) * channels) ((index + 1 + 1) * channels) = #[] := by
        rw [Array.extract_eq_empty_iff, size, Nat.succ_mul index]
        omega
      rw [outside, Array.empty_append, Nat.succ_mul (index + 1), Nat.succ_mul index,
        Nat.add_sub_cancel, Nat.add_sub_cancel, ← Nat.succ_mul]
      exact ih later (by simpa using found)

theorem framesOf_joinFrames (positive : 0 < channels) {frames : List (Array Sample)}
    (sizes : ∀ frame ∈ frames, frame.size = channels) :
    framesOf channels (joinFrames frames #[]) = frames := by
  rw [framesOf_eq positive (size_joinFrames sizes)]
  apply List.ext_getElem
  · simp
  · intro index here there
    rw [List.getElem_map, List.getElem_range]
    exact extract_joinFrames sizes (List.getElem?_eq_getElem there)

theorem splitFrames_eq (positive : 0 < channels) (size : samples.size = count * channels) :
    splitFrames channels samples = (framesOf channels samples, #[]) := by
  simp [framesOf, splitFrames, size, Nat.mul_div_cancel _ positive]

end Frames

/-! ## Delay lines -/

namespace AudioDelayLine

/-- The line remembers a history of whole frames, if it remembers at all. -/
structure Recalls (line : AudioDelayLine) (history : List (Array Sample)) : Prop where
  positive : 0 < line.channels
  frames : ∀ frame ∈ history, frame.size = line.channels
  ring : 0 < line.capacity → line.ring.Records history

theorem heard_size {line : AudioDelayLine} {frame : Option (Array Sample)}
    (sizes : ∀ whole, frame = some whole → whole.size = line.channels) :
    (line.heard frame).size = line.channels := by
  cases frame with
  | none => exact Array.size_replicate ..
  | some whole => exact sizes whole rfl

theorem mem_of_earlierBy {delay index : Nat} {history : List (Array Sample)} {frame : Array Sample}
    (found : earlierBy delay history index = some frame) : frame ∈ history := by
  unfold earlierBy at found
  split at found
  · exact List.mem_of_getElem? found
  · cases found

theorem process_shape {line next : AudioDelayLine} {block samples : Array Sample} {delay : Nat}
    (answer : line.process block delay = .ok (samples, next)) :
    next.channels = line.channels ∧ next.capacity = line.capacity := by
  unfold process at answer
  split at answer
  · cases answer
    exact ⟨rfl, rfl⟩
  split at answer
  · cases answer
  · cases answer
    exact ⟨rfl, Ring.run_capacity _ _ _⟩

/-- A block of whole frames comes out as many frames late as the delay, with
silence before the first frame. -/
theorem Recalls.process {line : AudioDelayLine} {history : List (Array Sample)}
    (recalls : line.Recalls history) {block : Array Sample} {count delay : Nat}
    (size : block.size = count * line.channels) (fits : delay ≤ line.capacity) :
    ∃ samples next, line.process block delay = .ok (samples, next) ∧
      samples.size = count * line.channels ∧ next.channels = line.channels ∧
      next.capacity = line.capacity ∧ next.Recalls (history ++ framesOf line.channels block) ∧
      framesOf line.channels samples = (List.range count).map fun index =>
        line.heard (earlierBy delay (history ++ framesOf line.channels block) (history.length + index)) := by
  have positive := recalls.positive
  have frames : ∀ frame ∈ history ++ framesOf line.channels block, frame.size = line.channels := by
    intro frame member
    rcases List.mem_append.mp member with before | here
    · exact recalls.frames frame before
    · exact size_of_mem_framesOf positive size here
  unfold AudioDelayLine.process
  -- A line without cells hands its block on, and then there is no delay to keep.
  by_cases none : line.capacity = 0
  · rw [if_pos none]
    refine ⟨block, line, rfl, size, rfl, rfl, ⟨positive, frames, fun some => absurd none (by omega)⟩, ?_⟩
    obtain rfl : delay = 0 := by omega
    have length := length_framesOf positive size
    apply List.ext_getElem
    · simp [length]
    · intro index here there
      simp [earlierBy, here, heard]
  · rw [if_neg none, if_neg (by omega), splitFrames_eq positive size]
    have whole : 0 < line.capacity := by omega
    obtain ⟨out, recorded⟩ := (recalls.ring whole).run whole fits (framesOf line.channels block)
    rw [length_framesOf positive size] at out
    dsimp only
    rw [out]
    have sizes : ∀ frame ∈ ((List.range count).map fun index =>
        earlierBy delay (history ++ framesOf line.channels block) (history.length + index)).map line.heard,
        frame.size = line.channels := by
      intro frame member
      obtain ⟨answer, among, rfl⟩ := List.mem_map.mp member
      obtain ⟨index, _, rfl⟩ := List.mem_map.mp among
      exact heard_size fun whole found => frames whole (mem_of_earlierBy found)
    refine ⟨_, _, rfl, ?_, rfl, Ring.run_capacity _ _ _, ⟨positive, frames, fun _ => recorded⟩, ?_⟩
    · rw [size_joinFrames sizes]
      simp
    · rw [framesOf_joinFrames positive sizes, List.map_map]
      rfl

end AudioDelayLine

end Patchbay
