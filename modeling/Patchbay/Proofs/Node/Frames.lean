import Patchbay.Proofs.Node.Access

/-! Audio, frame by frame.

What is done to a block of interleaved audio is done to each of its frames: sums,
gains and constants never look across a frame's end.
-/

set_option autoImplicit false

namespace Patchbay

/-! ## Machines -/

section

variable {σ α β : Type} {step : σ → α → β × σ}

/-- What a machine gives for the items that it takes in one after another, and the
state that they leave it in. -/
def stepAll (step : σ → α → β × σ) : σ → List α → List β × σ
  | state, [] => ([], state)
  | state, item :: rest =>
      let (out, next) := step state item
      let (outs, last) := stepAll step next rest
      (out :: outs, last)

theorem stepAll_cons (state : σ) (item : α) (rest : List α) : stepAll step state (item :: rest) =
    ((step state item).1 :: (stepAll step (step state item).2 rest).1,
      (stepAll step (step state item).2 rest).2) := rfl

theorem stepAll_append (state : σ) (items others : List α) :
    stepAll step state (items ++ others) =
      ((stepAll step state items).1 ++ (stepAll step (stepAll step state items).2 others).1,
        (stepAll step (stepAll step state items).2 others).2) := by
  induction items generalizing state with
  | nil => rfl
  | cons item rest ih => rw [List.cons_append, stepAll_cons, ih, stepAll_cons, List.cons_append]

theorem length_stepAll (state : σ) (items : List α) : (stepAll step state items).1.length = items.length := by
  induction items generalizing state with
  | nil => rfl
  | cons item rest ih => exact congrArg (· + 1) (ih _)

/-- What comes out first depends on what went in first. -/
theorem stepAll_take (state : σ) (items : List α) (count : Nat) :
    (stepAll step state (items.take count)).1 = (stepAll step state items).1.take count := by
  induction items generalizing state count with
  | nil => simp [stepAll]
  | cons item rest ih =>
    cases count with
    | zero => rfl
    | succ count => exact congrArg ((step state item).1 :: ·) (ih _ count)

theorem stepAll_fixed {state : σ} {answer : α → β} (fixed : ∀ item, step state item = (answer item, state))
    (items : List α) : stepAll step state items = (items.map answer, state) := by
  induction items with
  | nil => rfl
  | cons item rest ih => rw [stepAll_cons, fixed, ih, List.map_cons]

theorem stepAll_invariant {P : σ → Prop} (kept : ∀ state item, P state → P (step state item).2) {state : σ}
    (start : P state) (items : List α) : P (stepAll step state items).2 := by
  induction items generalizing state with
  | nil => exact start
  | cons item rest ih => exact ih (kept state item start)

theorem stepAll_map {τ γ : Type} {outer : τ → α → γ × τ} {wrap : σ → τ} {view : β → γ}
    (wrapped : ∀ state item, outer (wrap state) item = (view (step state item).1, wrap (step state item).2))
    (state : σ) (items : List α) :
    stepAll outer (wrap state) items =
      ((stepAll step state items).1.map view, wrap (stepAll step state items).2) := by
  induction items generalizing state with
  | nil => rfl
  | cons item rest ih => rw [stepAll_cons, wrapped, ih, stepAll_cons, List.map_cons]

end

theorem Ring.run_eq_stepAll {Frame : Type} (ring : Ring Frame) (delay : Nat) (frames : List Frame) :
    ring.run delay frames = stepAll (·.step delay ·) ring frames := by
  induction frames generalizing ring with
  | nil => rfl
  | cons frame rest ih => rw [Ring.run_cons, stepAll_cons, ih]

/-! ## Blocks -/

theorem flatMap_eq_map_range {α β : Type} {size : Nat} {part : α → List β} {whole : Nat → β} {items : List α}
    (parts : ∀ (index : Nat) item, items[index]? = some item →
      part item = (List.range size).map fun place => whole (index * size + place)) :
    items.flatMap part = (List.range (items.length * size)).map whole := by
  induction items generalizing whole with
  | nil => simp
  | cons item rest ih =>
    have first := parts 0 item rfl
    have later := @ih (fun place => whole (size + place)) fun index other found => by
      rw [parts (index + 1) other found]
      refine List.map_congr_left fun place _ => congrArg whole ?_
      rw [Nat.succ_mul, Nat.add_comm (index * size), Nat.add_assoc]
    rw [List.flatMap_cons, first, later, List.length_cons, Nat.succ_mul, Nat.add_comm _ size, List.range_add,
      List.map_append, List.map_map]
    simp only [Nat.zero_mul, Nat.zero_add]
    rfl

section

variable {channels count : Nat} {samples : Array Sample}

theorem framesOf_replicate (positive : 0 < channels) (count : Nat) (value : Sample) :
    framesOf channels (Array.replicate (count * channels) value) =
      List.replicate count (Array.replicate channels value) := by
  rw [framesOf_eq positive Array.size_replicate, List.eq_replicate_iff]
  refine ⟨by simp, ?_⟩
  intro frame member
  obtain ⟨index, inside, rfl⟩ := List.mem_map.mp member
  have := Nat.mul_le_mul_right channels (Nat.succ_le_of_lt (List.mem_range.mp inside))
  rw [Array.extract_replicate]
  congr 1
  rw [Nat.succ_mul] at *
  omega

theorem framesOf_append (positive : 0 < channels) {first rest : Array Sample} (width : first.size = channels)
    (size : rest.size = count * channels) : framesOf channels (first ++ rest) = first :: framesOf channels rest := by
  have whole : (first ++ rest).size = (count + 1) * channels := by
    rw [Array.size_append, width, size, Nat.succ_mul, Nat.add_comm]
  rw [framesOf_eq positive whole, framesOf_eq positive size, List.range_succ_eq_map, List.map_cons, List.map_map]
  congr 1
  · rw [Array.extract_append, Nat.zero_mul, Nat.zero_add, Nat.one_mul, width, Nat.sub_self, Nat.zero_sub]
    simp [← width]
  · refine List.map_congr_left fun index _ => ?_
    have past : first.extract ((index + 1) * channels) ((index + 1 + 1) * channels) = #[] := by
      rw [Array.extract_eq_empty_iff, width, Nat.succ_mul index]
      omega
    rw [Function.comp_apply, Array.extract_append, past, Array.empty_append, width, Nat.succ_mul (index + 1),
      Nat.succ_mul index, Nat.add_sub_cancel, Nat.add_sub_cancel, ← Nat.succ_mul]

theorem framesOf_map (positive : 0 < channels) (size : samples.size = count * channels) (change : Sample → Sample) :
    framesOf channels (samples.map change) = (framesOf channels samples).map (·.map change) := by
  rw [framesOf_eq positive (Array.size_map.trans size), framesOf_eq positive size, List.map_map]
  refine List.map_congr_left fun index _ => ?_
  exact Array.map_extract.symm

theorem framesOf_mapIdx (positive : 0 < channels) (size : samples.size = count * channels)
    (change : Nat → Sample → Sample) :
    framesOf channels (samples.mapIdx fun place => change (place % channels)) =
      (framesOf channels samples).map (·.mapIdx fun place => change (place % channels)) := by
  rw [framesOf_eq positive (Array.size_mapIdx.trans size), framesOf_eq positive size, List.map_map]
  refine List.map_congr_left fun index _ => Array.ext_getElem? fun place => ?_
  simp only [Function.comp_apply, Array.getElem?_extract, Array.getElem?_mapIdx, Array.size_mapIdx]
  split
  · rw [Nat.mul_comm index, Nat.mul_add_mod]
  · rfl

theorem extract_addScaled (target source : Array Sample) (gain : Sample) (start stop : Nat) :
    (addScaled target source gain).extract start stop =
      addScaled (target.extract start stop) (source.extract start stop) gain := by
  refine Array.ext_getElem? fun place => ?_
  simp only [addScaled, Array.getElem?_extract, Array.getElem?_mapIdx, Array.size_mapIdx]
  split
  · by_cases inside : place < min stop source.size - start
    · rw [if_pos inside]
    · have none : source[start + place]? = none := Array.getElem?_eq_none (by omega)
      rw [if_neg inside, none]
  · rfl

end

/-! ## Signals -/

def SignalBuffer.frames : SignalBuffer → List (Array Sample)
  | .audio block => framesOf block.channels block.samples
  | _ => []

def audible (channels : Nat) (frame : Option (Array Sample)) : Array Sample :=
  frame.getD (Array.replicate (max channels 1) 0)

def late (channels wait : Nat) (frames : List (Array Sample)) : List (Array Sample) :=
  (List.range frames.length).map fun index => audible channels (earlierBy wait frames index)

theorem length_late (channels wait : Nat) (frames : List (Array Sample)) :
    (late channels wait frames).length = frames.length := by
  rw [late, List.length_map, List.length_range]

theorem late_take (channels wait : Nat) (frames : List (Array Sample)) (count : Nat) :
    (late channels wait frames).take count = late channels wait (frames.take count) := by
  rw [late, late, ← List.map_take, List.take_range, List.length_take]
  refine List.map_congr_left fun index early => congrArg (audible channels) ?_
  have inside : index < count := (List.mem_range.mp early).trans_le (Nat.min_le_left ..)
  exact earlierBy_congr (by rw [List.take_take, Nat.min_self]) inside

theorem AudioDelayLine.heard_eq {line : AudioDelayLine} {channels : Nat}
    (width : line.channels = max channels 1) (frame : Option (Array Sample)) :
    line.heard frame = audible channels frame := by
  cases frame with
  | none => rw [heard, audible, width, Option.getD_none]
  | some frame => rfl

theorem Format.Shapes.length_frames {format : Format} {channels : Nat} {signal : SignalBuffer}
    (shapes : format.Shapes (.audio channels) signal) : signal.frames.length = format.blockSize := by
  cases shapes with
  | @audio _ block width size =>
    refine length_framesOf (by omega) ?_
    rw [size, width]

/-! ## Sums -/

def mixFrames (channels : Nat) (parts : List (Sample × Array Sample)) : Array Sample :=
  parts.foldl (fun mixed part => addScaled mixed part.2 part.1) (Array.replicate (max channels 1) 0)

def Inputs.mixed (inputs : Inputs) (count port channels : Nat) : List (Array Sample) :=
  (List.range count).map fun index => mixFrames channels
    ((inputs.sources port).map fun source => (source.gain, source.buffer.frames.getD index #[]))

theorem Inputs.length_mixed (inputs : Inputs) (count port channels : Nat) :
    (inputs.mixed count port channels).length = count := by
  rw [mixed, List.length_map, List.length_range]

variable {format : Format} {channels : Nat}

theorem extract_mixSources {sources : List Source}
    (shapes : ∀ source ∈ sources, format.Shapes (.audio channels) source.buffer) (target : Array Sample)
    {index : Nat} (inside : index < format.blockSize) :
    (mixSources sources target).extract (index * max channels 1) ((index + 1) * max channels 1) =
      (sources.map fun source => (source.gain, source.buffer.frames.getD index #[])).foldl
        (fun mixed part => addScaled mixed part.2 part.1)
        (target.extract (index * max channels 1) ((index + 1) * max channels 1)) := by
  unfold mixSources
  induction sources generalizing target with
  | nil => rfl
  | cons source rest ih =>
    rw [List.foldl_cons, ih fun other member => shapes other (List.mem_cons_of_mem source member), List.map_cons,
      List.foldl_cons]
    congr 1
    have here := shapes source List.mem_cons_self
    generalize source.buffer = buffer at here ⊢
    cases here with
    | @audio _ block width size =>
      have frame : (SignalBuffer.audio block).frames.getD index #[] =
          block.samples.extract (index * max channels 1) ((index + 1) * max channels 1) := by
        rw [SignalBuffer.frames, width, framesOf_eq (by omega) size, List.getD_eq_getElem?_getD, List.getElem?_map,
          List.getElem?_range inside, Option.map_some, Option.getD_some]
      rw [frame]
      exact extract_addScaled target block.samples source.gain _ _

/-- A port's sum onto silence is the sum of its sources' frames. -/
theorem Inputs.framesOf_mixInto {inputs : Inputs} {port : Nat}
    (shapes : ∀ source ∈ inputs.sources port, format.Shapes (.audio channels) source.buffer) :
    framesOf (max channels 1)
      (inputs.mixInto port (Array.replicate (format.blockSize * max channels 1) 0)).2 =
      inputs.mixed format.blockSize port channels := by
  have size : (inputs.mixInto port (Array.replicate (format.blockSize * max channels 1) 0)).2.size =
      format.blockSize * max channels 1 := (size_mixSources _ _).trans Array.size_replicate
  rw [framesOf_eq (by omega) size]
  refine List.map_congr_left fun index inside => ?_
  have inside := List.mem_range.mp inside
  rw [mixInto, extract_mixSources shapes _ inside, mixFrames, Array.extract_replicate]
  congr 2
  have := Nat.mul_le_mul_right (max channels 1) (Nat.succ_le_of_lt inside)
  rw [Nat.succ_mul] at *
  omega

end Patchbay
