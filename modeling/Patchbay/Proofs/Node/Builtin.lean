import Patchbay.Node.Builtin
import Patchbay.Proofs.Delay.Ring
import Patchbay.Proofs.Node.Sight
import Patchbay.Proofs.Node.Uses

/-! The nodes that come with the library write to their audio outputs and do nothing
else to their ports.

For a delay this takes that its line holds whole frames, which its calls keep so. If
the line is also long enough, it never fails to answer. None of the nodes can tell
what the merge space holds.
-/

set_option autoImplicit false

namespace Patchbay

/-! ## Whole frames in a line -/

namespace Ring

variable {Frame : Type} {P : Frame → Prop} {ring : Ring Frame} {delay : Nat}

theorem step_forall (cells : ∀ cell ∈ ring.cells, P cell) {frame : Frame} (here : P frame) :
    (∀ out, (ring.step delay frame).1 = some out → P out) ∧ ∀ cell ∈ (ring.step delay frame).2.cells, P cell := by
  refine ⟨?_, ?_⟩
  · intro out found
    unfold step at found
    dsimp only at found
    split at found
    · cases found
      exact here
    · exact cells out (Array.mem_of_getElem? found)
  · intro cell member
    unfold step at member
    dsimp only at member
    split at member
    · rcases Array.mem_or_eq_of_mem_setIfInBounds member with old | rfl
      · exact cells cell old
      · exact here
    · rcases Array.mem_push.mp member with old | rfl
      · exact cells cell old
      · exact here

theorem run_forall (cells : ∀ cell ∈ ring.cells, P cell) {frames : List Frame}
    (all : ∀ frame ∈ frames, P frame) :
    (ring.run delay frames).1.length = frames.length ∧
      (∀ frame, some frame ∈ (ring.run delay frames).1 → P frame) ∧
      ∀ cell ∈ (ring.run delay frames).2.cells, P cell := by
  induction frames generalizing ring with
  | nil => exact ⟨rfl, fun _ member => absurd member List.not_mem_nil, cells⟩
  | cons frame rest ih =>
    obtain ⟨out, kept⟩ := @step_forall _ _ _ delay cells _ (all frame List.mem_cons_self)
    obtain ⟨length, sound, kept⟩ := ih kept fun other member => all other (List.mem_cons_of_mem frame member)
    rw [run_cons]
    refine ⟨congrArg (· + 1) length, ?_, kept⟩
    intro other member
    rcases List.mem_cons.mp member with same | among
    · exact out other same.symm
    · exact sound other among

end Ring

namespace AudioDelayLine

def Whole (line : AudioDelayLine) : Prop := ∀ frame ∈ line.ring.cells, frame.size = line.channels

theorem process_ok {line : AudioDelayLine} (block : Array Sample) {delay : Nat} (fits : delay ≤ line.capacity) :
    ∃ result, line.process block delay = .ok result := by
  unfold process
  split
  · exact ⟨_, rfl⟩
  · rw [if_neg (by omega)]
    exact ⟨_, rfl⟩

theorem size_joinFrames_append {channels : Nat} {frames : List (Array Sample)}
    (sizes : ∀ frame ∈ frames, frame.size = channels) (rest : Array Sample) :
    (joinFrames frames rest).size = frames.length * channels + rest.size := by
  have whole := size_joinFrames sizes
  simp only [joinFrames, Array.append_empty] at whole
  simp only [joinFrames, Array.size_append, whole]

theorem Whole.process {line next : AudioDelayLine} (whole : line.Whole) {block samples : Array Sample}
    {delay : Nat} (answer : line.process block delay = .ok (samples, next)) :
    samples.size = block.size ∧ next.Whole := by
  unfold AudioDelayLine.process at answer
  split at answer
  · cases answer
    exact ⟨rfl, whole⟩
  split at answer
  · cases answer
  -- A block is cut into frames and what is over; only the frames go through the ring.
  have inside : ∀ frame ∈ (splitFrames line.channels block).1, frame.size = line.channels := by
    intro frame member
    obtain ⟨index, within, rfl⟩ := List.mem_map.mp member
    have := Nat.mul_le_mul_right line.channels (Nat.succ_le_of_lt (List.mem_range.mp within))
    have := Nat.div_mul_le_self block.size line.channels
    rw [Array.size_extract, Nat.succ_mul] at *
    omega
  obtain ⟨length, sound, kept⟩ := @Ring.run_forall _ _ _ delay whole _ inside
  simp only [Except.ok.injEq, Prod.mk.injEq] at answer
  obtain ⟨rfl, rfl⟩ := answer
  refine ⟨?_, kept⟩
  have sizes : ∀ frame ∈ (line.ring.run delay (splitFrames line.channels block).1).1.map line.heard,
      frame.size = line.channels := by
    intro frame member
    obtain ⟨out, among, rfl⟩ := List.mem_map.mp member
    exact heard_size fun frame same => sound frame (same ▸ among)
  have := Nat.div_mul_le_self block.size line.channels
  rw [size_joinFrames_append sizes, List.length_map, length]
  simp only [splitFrames, List.length_map, List.length_range, Array.size_extract]
  omega

end AudioDelayLine

/-! ## The nodes -/

theorem Ports.Writes.write {ports : Ports} {port : Nat} {block : AudioBuffer} {samples : Array Sample}
    (found : ports.audioOut? port = some block) (size : samples.size = block.samples.size) :
    ports.Writes (ports.putSamples port block samples) := .single (.samples samples found size)

theorem Constant.writes : Node.AbidesBy Ports.Writes fun _ : Constant => True := by
  intro context node next ports reply outcome _ answer
  refine ⟨?_, trivial⟩
  simp only [Node.process] at answer
  split at answer
  · cases answer
    exact .refl
  · rename_i block found
    cases answer
    exact .write found Array.size_replicate

theorem Gain.writes : Node.AbidesBy Ports.Writes fun _ : Gain => True := by
  intro context node next ports reply outcome _ answer
  refine ⟨?_, trivial⟩
  simp only [Node.process] at answer
  split at answer
  · cases answer
    exact .refl
  · rename_i block found
    cases answer
    refine .write found ?_
    rw [Array.size_map, Inputs.mixInto, size_mixSources]

theorem size_setFirst (samples : Array Sample) (count : Nat) (value : Sample) :
    (setFirst samples count value).size = samples.size := by
  unfold setFirst
  split
  · rw [Array.size_append, Array.size_replicate, Array.size_extract]
    omega
  · rfl

theorem Impulse.writes : Node.AbidesBy Ports.Writes fun _ : Impulse => True := by
  intro context node next ports reply outcome _ answer
  refine ⟨?_, trivial⟩
  simp only [Node.process] at answer
  split at answer
  · cases answer
    exact .refl
  split at answer
  · cases answer
    exact .refl
  · rename_i block found
    cases answer
    exact .write found (size_setFirst ..)

theorem Delay.writes : Node.AbidesBy Ports.Writes fun node : Delay => node.line.Whole := by
  intro context node next ports reply outcome whole answer
  simp only [Node.process] at answer
  split at answer
  · cases answer
    exact ⟨.refl, whole⟩
  · rename_i block found
    simp only [bind_eq_ok, pure_eq_ok, Prod.mk.injEq, Prod.exists] at answer
    obtain ⟨samples, line, delayed, rfl, rfl, rfl⟩ := answer
    obtain ⟨size, whole⟩ := whole.process delayed
    refine ⟨.write found (size.trans ?_), whole⟩
    rw [Inputs.mixInto, size_mixSources]

def Delay.Fits (node : Delay) : Prop := node.line.capacity = node.maxSamples

theorem Delay.writes_fitting :
    Node.AbidesBy Ports.Writes fun node : Delay => node.line.Whole ∧ node.Fits := by
  intro context node next ports reply outcome kept answer
  obtain ⟨writes, whole⟩ := Delay.writes kept.1 answer
  refine ⟨writes, whole, ?_⟩
  simp only [Node.process] at answer
  split at answer
  · cases answer
    exact kept.2
  · simp only [bind_eq_ok, pure_eq_ok, Prod.mk.injEq, Prod.exists] at answer
    obtain ⟨samples, line, delayed, rfl, rfl, rfl⟩ := answer
    exact (AudioDelayLine.process_shape delayed).2.trans kept.2

theorem ChannelStrip.writes_post {node next : ChannelStrip} {ports middle reply : Ports} {outcome : Outcome}
    (writes : ports.Writes middle)
    (answer : (match middle.audioOut? ChannelStrip.post with
      | none => .ok (.noOutput, node, middle)
      | some block => .ok (.done, node, middle.putSamples ChannelStrip.post block
          (node.fade block.channels (middle.inputs.mixInto 0 block.samples).2))) =
      (.ok (outcome, next, reply) : Checked (Outcome × ChannelStrip × Ports))) : ports.Writes reply := by
  split at answer
  · cases answer
    exact writes
  · rename_i block found
    cases answer
    refine writes.trans (Ports.Writes.write found ?_)
    rw [ChannelStrip.fade, Array.size_mapIdx, Inputs.mixInto, size_mixSources]

theorem ChannelStrip.writes : Node.AbidesBy Ports.Writes fun _ : ChannelStrip => True := by
  intro context node next ports reply outcome _ answer
  refine ⟨?_, trivial⟩
  simp only [Node.process] at answer
  split at answer
  · cases answer
    exact .refl
  refine ChannelStrip.writes_post ?_ answer
  split
  · rename_i block found
    refine .write found ?_
    rw [Inputs.mixInto, size_mixSources]
  · exact .refl

def Builtin.Whole : Builtin → Prop
  | .delay node => node.line.Whole
  | _ => True

/-- The lines of delays hold whole frames, and as many as any setting needs. -/
def Builtin.Fits : Builtin → Prop
  | .delay node => node.line.Whole ∧ node.Fits
  | _ => True

theorem Node.AbidesBy.wrap {α : Type} [Node α] {allowed : Ports → Ports → Prop} {keeps : α → Prop}
    {all : Builtin → Prop} (abides : Node.AbidesBy allowed keeps) (wrapped : α → Builtin)
    (whole : ∀ node, keeps node → all (wrapped node)) {context : Context} {node : α} {ports reply : Ports}
    {outcome : Outcome} {next : Builtin} (kept : keeps node)
    (answer : (do
      let (outcome, node, ports) ← Node.process context node ports
      return (outcome, wrapped node, ports)) = Except.ok (outcome, next, reply)) :
    allowed ports reply ∧ all next := by
  simp only [bind_eq_ok, pure_eq_ok, Prod.mk.injEq, Prod.exists] at answer
  obtain ⟨_, _, _, answered, rfl, rfl, rfl⟩ := answer
  obtain ⟨within, kept⟩ := abides kept answered
  exact ⟨within, whole _ kept⟩

theorem Builtin.writes : Node.AbidesBy Ports.Writes Builtin.Whole := by
  intro context node next ports reply outcome whole answer
  cases node with
  | constant node => exact Constant.writes.wrap .constant (fun _ _ => trivial) trivial answer
  | gain node => exact Gain.writes.wrap .gain (fun _ _ => trivial) trivial answer
  | impulse node => exact Impulse.writes.wrap .impulse (fun _ _ => trivial) trivial answer
  | delay node => exact Delay.writes.wrap .delay (fun _ kept => kept) whole answer
  | strip node => exact ChannelStrip.writes.wrap .strip (fun _ _ => trivial) trivial answer

theorem Builtin.writes_fitting : Node.AbidesBy Ports.Writes Builtin.Fits := by
  intro context node next ports reply outcome fits answer
  cases node with
  | constant node => exact Constant.writes.wrap .constant (fun _ _ => trivial) trivial answer
  | gain node => exact Gain.writes.wrap .gain (fun _ _ => trivial) trivial answer
  | impulse node => exact Impulse.writes.wrap .impulse (fun _ _ => trivial) trivial answer
  | delay node => exact Delay.writes_fitting.wrap .delay (fun _ kept => kept) fits answer
  | strip node => exact ChannelStrip.writes.wrap .strip (fun _ _ => trivial) trivial answer

theorem Builtin.abides : Node.Abides Builtin.Whole :=
  Builtin.writes.mono fun _ _ writes => writes.accesses

theorem Builtin.abides_fitting : Node.Abides Builtin.Fits :=
  Builtin.writes_fitting.mono fun _ _ writes => writes.accesses

/-! ## Answers -/

theorem Node.answers_wrap {α : Type} [Node α] (wrapped : α → Builtin) {context : Context} {node : α} {ports : Ports}
    (answers : ∃ result, Node.process context node ports = .ok result) :
    ∃ result, (do
      let (outcome, node, ports) ← Node.process context node ports
      return (outcome, wrapped node, ports)) = (Except.ok result : Checked (Outcome × Builtin × Ports)) := by
  obtain ⟨⟨outcome, next, reply⟩, answer⟩ := answers
  exact ⟨(outcome, wrapped next, reply), by rw [answer]; rfl⟩

theorem Delay.answers {node : Delay} (fits : node.Fits) (context : Context) (ports : Ports) :
    ∃ result, Node.process context node ports = .ok result := by
  simp only [Node.process]
  split
  · exact ⟨_, rfl⟩
  · have enough : node.setting ≤ node.line.capacity := by
      rw [fits]
      exact Nat.min_le_right _ _
    obtain ⟨result, delayed⟩ := AudioDelayLine.process_ok (ports.inputs.mixInto 0 _).2 enough
    rw [delayed]
    exact ⟨_, rfl⟩

theorem ChannelStrip.answers (node : ChannelStrip) (context : Context) (ports : Ports) :
    ∃ result, Node.process context node ports = .ok result := by
  simp only [Node.process]
  split
  · exact ⟨_, rfl⟩
  · split <;> exact ⟨_, rfl⟩

theorem Builtin.answers {node : Builtin} (fits : node.Fits) (context : Context) (ports : Ports) :
    ∃ result, Node.process context node ports = .ok result := by
  cases node with
  | constant node =>
    refine Node.answers_wrap .constant ?_
    simp only [Node.process]
    split <;> exact ⟨_, rfl⟩
  | gain node =>
    refine Node.answers_wrap .gain ?_
    simp only [Node.process]
    split <;> exact ⟨_, rfl⟩
  | impulse node =>
    refine Node.answers_wrap .impulse ?_
    simp only [Node.process]
    split
    · exact ⟨_, rfl⟩
    · split <;> exact ⟨_, rfl⟩
  | delay node => exact Node.answers_wrap .delay (Delay.answers fits.2 context ports)
  | strip node => exact Node.answers_wrap .strip (node.answers context ports)

theorem Builtin.acts : Node.Acts Builtin.Fits := by
  intro context node ports fits
  obtain ⟨⟨outcome, next, reply⟩, answer⟩ := Builtin.answers fits context ports
  obtain ⟨writes, still⟩ := Builtin.writes_fitting fits answer
  exact .inl ⟨outcome, next, reply, answer, writes.uses, still⟩

/-! ## What the nodes go by -/

theorem Constant.asks : Node.Asks Constant := by
  refine fun context node => .of_bare fun ports => ?_
  simp only [Node.process, Ports.bare_audioOut?]
  cases ports.audioOut? 0 <;> rfl

theorem Gain.asks : Node.Asks Gain := by
  refine fun context node => .of_bare fun ports => ?_
  simp only [Node.process, Ports.bare_audioOut?]
  cases ports.audioOut? 0 <;> rfl

theorem Impulse.asks : Node.Asks Impulse := by
  refine fun context node => .of_bare fun ports => ?_
  simp only [Node.process, Ports.bare_audioOut?]
  split
  · rfl
  · cases ports.audioOut? 0 <;> rfl

theorem Delay.asks : Node.Asks Delay := by
  refine fun context node => .of_bare fun ports => ?_
  simp only [Node.process, Ports.bare_audioOut?, Ports.bare_mixInto]
  cases ports.audioOut? 0 with
  | none => rfl
  | some block =>
    dsimp only
    cases node.line.process (ports.inputs.mixInto 0 block.samples).2 node.setting <;> rfl

theorem ChannelStrip.asks : Node.Asks ChannelStrip := by
  refine fun context node => .of_bare fun ports => ?_
  by_cases idle : (node.mute || !ports.inputs.isConnected 0) = true
  · have also : (node.mute || !ports.bare.inputs.isConnected 0) = true := idle
    simp only [Node.process, if_pos idle, if_pos also]
    rfl
  · have also : ¬ (node.mute || !ports.bare.inputs.isConnected 0) = true := idle
    simp only [Node.process, if_neg idle, if_neg also, Ports.bare_audioOut?, Ports.bare_mixInto, Ports.bare_putSamples]
    cases ports.audioOut? ChannelStrip.pre with
    | none =>
      simp only [Ports.bare_audioOut?]
      cases ports.audioOut? ChannelStrip.post <;> rfl
    | some block =>
      simp only [Ports.bare_audioOut?]
      cases (ports.putSamples ChannelStrip.pre block _).audioOut? ChannelStrip.post <;> rfl

theorem Builtin.asks : Node.Asks Builtin := by
  intro context node
  cases node with
  | constant node => exact (Constant.asks context node).map Builtin.constant
  | gain node => exact (Gain.asks context node).map Builtin.gain
  | impulse node => exact (Impulse.asks context node).map Builtin.impulse
  | delay node => exact (Delay.asks context node).map Builtin.delay
  | strip node => exact (ChannelStrip.asks context node).map Builtin.strip

/-! ## Resets -/

/-- Whatever a call makes of a node, a reset undoes, and the latency stays. -/
def Node.Renews (ν : Type) [Node ν] : Prop :=
  ∀ {context : Context} {node next : ν} {ports reply : Ports} {outcome : Outcome},
    Node.process context node ports = .ok (outcome, next, reply) →
    Node.reset next = Node.reset node ∧ Node.latency next = Node.latency node

theorem AudioDelayLine.process_clear {line next : AudioDelayLine} {block samples : Array Sample} {delay : Nat}
    (answer : line.process block delay = .ok (samples, next)) : next.clear = line.clear := by
  have channels : next.channels = line.channels := by
    unfold process at answer
    split at answer
    · cases answer
      rfl
    split at answer <;> cases answer
    rfl
  simp only [clear, (process_shape answer).2, channels]

theorem Constant.renews : Node.Renews Constant := by
  intro context node next ports reply outcome answer
  simp only [Node.process] at answer
  split at answer <;>
  · cases answer
    exact ⟨rfl, rfl⟩

theorem Gain.renews : Node.Renews Gain := by
  intro context node next ports reply outcome answer
  simp only [Node.process] at answer
  split at answer <;>
  · cases answer
    exact ⟨rfl, rfl⟩

theorem Impulse.renews : Node.Renews Impulse := by
  intro context node next ports reply outcome answer
  simp only [Node.process] at answer
  split at answer
  · cases answer
    exact ⟨rfl, rfl⟩
  split at answer <;>
  · cases answer
    exact ⟨rfl, rfl⟩

theorem Delay.renews : Node.Renews Delay := by
  intro context node next ports reply outcome answer
  simp only [Node.process] at answer
  split at answer
  · cases answer
    exact ⟨rfl, rfl⟩
  · simp only [bind_eq_ok, pure_eq_ok, Prod.mk.injEq, Prod.exists] at answer
    obtain ⟨samples, line, delayed, rfl, rfl, rfl⟩ := answer
    refine ⟨?_, rfl⟩
    simp only [Node.reset, AudioDelayLine.process_clear delayed]

theorem ChannelStrip.renews : Node.Renews ChannelStrip := by
  intro context node next ports reply outcome answer
  simp only [Node.process] at answer
  split at answer
  · cases answer
    exact ⟨rfl, rfl⟩
  · split at answer <;>
    · split at answer <;>
      · cases answer
        exact ⟨rfl, rfl⟩

theorem Node.Renews.wrap {α : Type} [Node α] (renews : Node.Renews α) (wrapped : α → Builtin) {context : Context}
    {node : α} {ports reply : Ports} {outcome : Outcome} {next : Builtin}
    (answer : (do
      let (outcome, node, ports) ← Node.process context node ports
      return (outcome, wrapped node, ports)) = Except.ok (outcome, next, reply)) :
    ∃ after, wrapped after = next ∧ Node.reset after = Node.reset node ∧ Node.latency after = Node.latency node := by
  simp only [bind_eq_ok, pure_eq_ok, Prod.mk.injEq, Prod.exists] at answer
  obtain ⟨_, after, _, answered, rfl, rfl, rfl⟩ := answer
  exact ⟨after, rfl, renews answered⟩

theorem Builtin.renews : Node.Renews Builtin := by
  intro context node next ports reply outcome answer
  cases node with
  | constant node =>
    obtain ⟨after, rfl, reset, _⟩ := Constant.renews.wrap .constant answer
    exact ⟨congrArg Builtin.constant reset, rfl⟩
  | gain node =>
    obtain ⟨after, rfl, reset, _⟩ := Gain.renews.wrap .gain answer
    exact ⟨congrArg Builtin.gain reset, rfl⟩
  | impulse node =>
    obtain ⟨after, rfl, reset, _⟩ := Impulse.renews.wrap .impulse answer
    exact ⟨congrArg Builtin.impulse reset, rfl⟩
  | delay node =>
    obtain ⟨after, rfl, reset, latency⟩ := Delay.renews.wrap .delay answer
    exact ⟨congrArg Builtin.delay reset, latency⟩
  | strip node =>
    obtain ⟨after, rfl, reset, _⟩ := ChannelStrip.renews.wrap .strip answer
    exact ⟨congrArg Builtin.strip reset, rfl⟩

end Patchbay
