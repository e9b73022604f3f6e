import Patchbay.Proofs.Signal.Shape

/-! What a line plays back while its delay changes.

Blocks follow one another through a line, each of any length and under a delay of
its own. Joined end to end they come out as one stream, in which every frame is as
many frames late as the delay of the block that it came out in.
-/

set_option autoImplicit false

namespace Patchbay

/-- A block on its way through a line, and the delay that is set for it. -/
structure Passage where
  block : Array Sample
  delay : Nat

def stream (blocks : List (Array Sample)) : List Sample := blocks.flatMap Array.toList

def frameDelays (width : Nat) (passages : List Passage) : List Nat :=
  passages.flatMap fun passage => List.replicate (passage.block.size / width) passage.delay

def Admissible (width longest : Nat) (passages : List Passage) : Prop :=
  ∀ passage ∈ passages, width ∣ passage.block.size ∧ passage.delay ≤ longest

instance (width longest : Nat) (passages : List Passage) : Decidable (Admissible width longest passages) :=
  inferInstanceAs (Decidable (∀ passage ∈ passages, width ∣ passage.block.size ∧ passage.delay ≤ longest))

/-! ## Samples of a stream -/

section Samples

variable {width channel : Nat} {frames : List (Array Sample)} {blocks : List (Array Sample)}

theorem getElem?_stream (sizes : ∀ frame ∈ frames, frame.size = width) (inside : channel < width) (index : Nat) :
    (stream frames)[index * width + channel]? = frames[index]?.bind (·[channel]?) := by
  unfold stream
  induction frames generalizing index with
  | nil => rfl
  | cons first rest ih =>
    obtain ⟨size, later⟩ := List.forall_mem_cons.mp sizes
    rw [List.flatMap_cons]
    cases index with
    | zero =>
      rw [Nat.zero_mul, Nat.zero_add, List.getElem?_append_left (by simpa [size] using inside)]
      simp
    | succ index =>
      have past : (index + 1) * width + channel = width + (index * width + channel) := by
        rw [Nat.succ_mul]
        omega
      rw [past, List.getElem?_append_right (by simp [size]), Array.length_toList, size, Nat.add_sub_cancel_left,
        ih later, List.getElem?_cons_succ]

theorem stream_framesOf (positive : 0 < width) {block : Array Sample} (whole : width ∣ block.size) :
    stream (framesOf width block) = block.toList := by
  obtain ⟨count, size⟩ := whole
  rw [Nat.mul_comm] at size
  -- Frame by frame, longer and longer starts of the block.
  have starts : ∀ frames : Nat, stream ((List.range frames).map fun frame =>
      block.extract (frame * width) ((frame + 1) * width)) = block.toList.take (frames * width) := by
    intro frames
    unfold stream
    induction frames with
    | zero => simp
    | succ frames ih =>
      rw [List.range_succ, List.map_append, List.flatMap_append, ih, Nat.succ_mul, List.take_add]
      simp [Nat.succ_mul]
  rw [framesOf_eq positive size, starts, ← size]
  exact List.take_of_length_le (Nat.le_refl _)

theorem stream_flatMap_framesOf (positive : 0 < width) (whole : ∀ block ∈ blocks, width ∣ block.size) :
    stream (blocks.flatMap (framesOf width)) = stream blocks := by
  induction blocks with
  | nil => rfl
  | cons first rest ih =>
    obtain ⟨here, later⟩ := List.forall_mem_cons.mp whole
    unfold stream at ih ⊢
    rw [List.flatMap_cons, List.flatMap_append, ih later, List.flatMap_cons]
    congr 1
    exact stream_framesOf positive here

theorem size_of_mem_flatMap_framesOf (positive : 0 < width) (whole : ∀ block ∈ blocks, width ∣ block.size) :
    ∀ frame ∈ blocks.flatMap (framesOf width), frame.size = width := by
  intro frame member
  obtain ⟨block, among, inside⟩ := List.mem_flatMap.mp member
  obtain ⟨count, size⟩ := whole block among
  exact size_of_mem_framesOf positive (size.trans (Nat.mul_comm ..)) inside

end Samples

namespace AudioDelayLine

variable {line next made : AudioDelayLine} {history : List (Array Sample)} {passages : List Passage}

def play (line : AudioDelayLine) : List Passage → Checked (List (Array Sample) × AudioDelayLine)
  | [] => .ok ([], line)
  | passage :: rest => do
      let (out, line) ← line.process passage.block passage.delay
      let (outs, line) ← line.play rest
      return (out :: outs, line)

/-- What becomes of a line that blocks go through and that is cleared at times. -/
inductive Becomes (line : AudioDelayLine) : AudioDelayLine → Prop where
  | start : Becomes line line
  | process {now next : AudioDelayLine} {block out : Array Sample} {delay : Nat} : Becomes line now →
      now.process block delay = .ok (out, next) → Becomes line next
  | clear {now : AudioDelayLine} : Becomes line now → Becomes line now.clear

/-! ## Cleared lines -/

/-- Clearing takes a line back to how it was made, whatever went through it. -/
theorem Becomes.clear_eq {capacity channels : Nat} (created : empty capacity channels = .ok made)
    (lived : made.Becomes line) : line.clear = made := by
  simp only [empty, bind_eq_ok, pure_eq_ok] at created
  obtain ⟨_, _, _, _, rfl⟩ := created
  suffices shape : line.channels = max channels 1 ∧ line.capacity = capacity by
    rw [AudioDelayLine.clear, shape.1, shape.2]
  induction lived with
  | start => exact ⟨rfl, rfl⟩
  | process _ answer ih =>
    obtain ⟨width, longest⟩ := process_shape answer
    exact ⟨width.trans ih.1, longest.trans ih.2⟩
  | clear _ ih => exact ih

/-! ## Playback -/

theorem heard_eq_getD (line : AudioDelayLine) (frame : Option (Array Sample)) :
    line.heard frame = frame.getD (Array.replicate line.channels 0) := by
  cases frame <;> rfl

theorem length_frameDelays (width : Nat) (passages : List Passage) :
    (frameDelays width passages).length = ((passages.map (·.block)).flatMap (framesOf width)).length := by
  simp [frameDelays, List.length_flatMap, framesOf, splitFrames, Function.comp_def]

/-- A line that remembers what went by gives every frame of the next blocks as late as
the delay of its block. -/
theorem Recalls.play {width longest : Nat} (recalls : line.Recalls history) (wide : line.channels = width)
    (long : line.capacity = longest) (fits : Admissible width longest passages) :
    ∃ outs last, line.play passages = .ok (outs, last) ∧
      List.Forall₂ (fun passage out => out.size = passage.block.size) passages outs ∧
      outs.flatMap (framesOf width) = (frameDelays width passages).mapIdx fun index delay =>
        (earlierBy delay (history ++ (passages.map (·.block)).flatMap (framesOf width))
          (history.length + index)).getD (Array.replicate width 0) := by
  -- The history that the induction is on grows by a block at each passage, and the line moves with it.
  induction passages generalizing line history with
  | nil => exact ⟨[], line, rfl, .nil, rfl⟩
  | cons passage rest ih =>
    obtain ⟨⟨⟨count, size⟩, near⟩, later⟩ := List.forall_mem_cons.mp fits
    rw [Nat.mul_comm] at size
    have positive : 0 < width := wide ▸ recalls.positive
    have length := length_framesOf positive size
    obtain ⟨out, next, answer, size', wide', long', recalls', frames⟩ :=
      recalls.process (wide.symm ▸ size) (near.trans_eq long.symm)
    rw [wide] at size' recalls' frames
    obtain ⟨outs, last, answers, sizes, behind⟩ := ih recalls' (wide'.trans wide) (long'.trans long) later
    refine ⟨out :: outs, last, ?_, .cons (size'.trans size.symm) sizes, ?_⟩
    · rw [AudioDelayLine.play, answer, ok_bind]
      dsimp only
      rw [answers]
      rfl
    · rw [List.flatMap_cons, frames, behind]
      unfold frameDelays
      rw [List.flatMap_cons, List.mapIdx_append, List.map_cons, List.flatMap_cons, size,
        Nat.mul_div_cancel _ positive, ← List.append_assoc]
      congr 1
      · -- No frame of this block is played back from a later one.
        apply List.ext_getElem
        · simp
        · intro index here there
          have inside : index < count := by simpa using here
          have early : history.length + index < (history ++ framesOf width passage.block).length := by
            rw [List.length_append, length]
            omega
          rw [List.getElem_map, List.getElem_range, List.getElem_mapIdx, List.getElem_replicate, heard_eq_getD,
            wide, earlierBy_append _ early]
      · congr 1
        funext index delay
        rw [List.length_append, length, List.length_replicate, Nat.add_assoc, Nat.add_comm count]

theorem Recalls.getElem?_play {width longest : Nat} (recalls : line.Recalls []) (wide : line.channels = width)
    (long : line.capacity = longest) (fits : Admissible width longest passages) :
    ∃ outs last, line.play passages = .ok (outs, last) ∧
      List.Forall₂ (fun passage out => out.size = passage.block.size) passages outs ∧
      ∀ frame delay channel, (frameDelays width passages)[frame]? = some delay → channel < width →
        (stream outs)[frame * width + channel]? = if frame < delay then some 0
          else (stream (passages.map (·.block)))[(frame - delay) * width + channel]? := by
  have positive : 0 < width := wide ▸ recalls.positive
  obtain ⟨outs, last, answers, sizes, frames⟩ := recalls.play wide long fits
  refine ⟨outs, last, answers, sizes, fun frame delay channel there inside => ?_⟩
  have whole : ∀ block ∈ passages.map (·.block), width ∣ block.size := by
    intro block member
    obtain ⟨passage, among, rfl⟩ := List.mem_map.mp member
    exact (fits passage among).1
  have whole' : ∀ out ∈ outs, width ∣ out.size := by
    intro out member
    obtain ⟨passage, among, size⟩ := exists_of_mem_right sizes member
    exact size ▸ (fits passage among).1
  have played : frame < ((passages.map (·.block)).flatMap (framesOf width)).length :=
    length_frameDelays width passages ▸ (List.getElem?_eq_some_iff.mp there).1
  -- Cut into frames, both streams can be compared as `play` gives them.
  rw [← stream_flatMap_framesOf positive whole', ← stream_flatMap_framesOf positive whole,
    getElem?_stream (size_of_mem_flatMap_framesOf positive whole') inside,
    getElem?_stream (size_of_mem_flatMap_framesOf positive whole) inside, frames, List.getElem?_mapIdx, there,
    List.nil_append, List.length_nil, Nat.zero_add, Option.map_some, Option.bind_some, earlierBy]
  by_cases silent : frame < delay
  · rw [if_neg (by omega), if_pos silent, Option.getD_none, Array.getElem?_replicate, if_pos inside]
  · rw [if_pos (by omega), if_neg silent, List.getElem?_eq_getElem (by omega)]
    rfl

theorem play_of_capacity_zero (none : line.capacity = 0) (passages : List Passage) :
    line.play passages = .ok (passages.map (·.block), line) := by
  induction passages with
  | nil => rfl
  | cons passage rest ih =>
    rw [play, process, if_pos none, ok_bind]
    dsimp only
    rw [ih]
    rfl

/-- A line that was made or cleared is an exact delay, however the delay changes from
block to block and however long the blocks are; without a capacity it changes nothing. -/
theorem play_exact {capacity channels : Nat} (created : empty capacity channels = .ok made)
    (fresh : line = made ∨ ∃ used, made.Becomes used ∧ line = used.clear) :
    (capacity = 0 → ∀ passages : List Passage, line.play passages = .ok (passages.map (·.block), line)) ∧
    (0 < capacity → ∀ passages : List Passage, Admissible (max channels 1) capacity passages →
      ∃ outs last, line.play passages = .ok (outs, last) ∧
        List.Forall₂ (fun passage out => out.size = passage.block.size) passages outs ∧
        ∀ frame delay channel, (frameDelays (max channels 1) passages)[frame]? = some delay →
          channel < max channels 1 →
          (stream outs)[frame * max channels 1 + channel]? = if frame < delay then some 0
            else (stream (passages.map (·.block)))[(frame - delay) * max channels 1 + channel]?) := by
  have unused : line = made := by
    rcases fresh with same | ⟨used, lived, rfl⟩
    · exact same
    · exact lived.clear_eq created
  subst unused
  simp only [empty, bind_eq_ok, pure_eq_ok] at created
  obtain ⟨_, _, _, _, rfl⟩ := created
  exact ⟨fun none => play_of_capacity_zero none,
    fun _ passages fits => (Format.recalls_empty capacity channels).getElem?_play rfl rfl fits⟩

def shrinking : List Passage := [⟨#[⟨1⟩, ⟨2⟩, ⟨3⟩], 2⟩, ⟨#[⟨4⟩, ⟨5⟩], 1⟩, ⟨#[⟨6⟩], 0⟩]

theorem play_exact_shrinking : ∃ made used : AudioDelayLine, empty 2 1 = .ok made ∧
    (∃ out, made.process #[⟨9⟩, ⟨9⟩] 1 = .ok (out, used)) ∧ Admissible (max 1 1) 2 shrinking ∧
    ∃ outs last, used.clear.play shrinking = .ok (outs, last) ∧
      (stream outs)[1]? = some 0 ∧ (stream outs)[3]? = some ⟨3⟩ ∧ (stream outs)[5]? = some ⟨6⟩ := by
  obtain ⟨made, created, out, used, answer⟩ : ∃ made : AudioDelayLine, empty 2 1 = .ok made ∧
      ∃ out used, made.process #[⟨9⟩, ⟨9⟩] 1 = .ok (out, used) := ⟨_, rfl, _, _, rfl⟩
  have fits : Admissible (max 1 1) 2 shrinking := by decide
  refine ⟨made, used, created, ⟨out, answer⟩, fits, ?_⟩
  obtain ⟨outs, last, answers, _, samples⟩ :=
    (play_exact created (.inr ⟨used, .process .start answer, rfl⟩)).2 (by decide) shrinking fits
  exact ⟨outs, last, answers, samples 1 2 0 rfl (by decide), samples 3 1 0 rfl (by decide),
    samples 5 0 0 rfl (by decide)⟩

end AudioDelayLine

end Patchbay
