import Patchbay.Proofs.Mixer.Evaluation
import Patchbay.Proofs.Mixer.WellFormed
import Patchbay.Proofs.Render.Instant

/-! A mixer's patch plays what the mixer evaluates to.

With sources that have no latency nothing in the patch waits, and no strip ever
fails. So in every block each strip shows on its outputs what its part makes of what
feeds it, and these equations have one solution, the evaluation.
-/

set_option autoImplicit false

namespace Patchbay

/-! ## One strip -/

def SignalBuffer.samples (buffer : SignalBuffer) : Array Sample := ((buffer.audio?).map (·.samples)).getD #[]

theorem addScaled_empty (target : Array Sample) (gain : Sample) : addScaled target #[] gain = target := by
  refine Array.ext (by simp [addScaled]) fun index here there => ?_
  simp [addScaled]

theorem mixSources_eq (sources : List Source) (target : Array Sample) : mixSources sources target =
    (sources.map fun source => (source.gain, source.buffer.samples)).foldl
      (fun sum (gain, samples) => addScaled sum samples gain) target := by
  rw [mixSources, List.foldl_map]
  congr 1
  funext sum source
  cases source.buffer with
  | audio block => rfl
  | midi | control | trigger => exact (addScaled_empty sum source.gain).symm

/-! ## Strips of a running plan -/

section

variable {ν : Type} [Node ν]

/-- Between two blocks anything may happen that leaves the strips as they are. -/
def Plan.KeepsStrips (plan after : Plan (ChannelStrip ⊕ ν)) : Prop :=
  Relation.ReflTransGen Plan.Touched plan after ∧ ∀ (position : Nat) strip,
    plan.nodes[position]? = some (.inl strip) → after.nodes[position]? = some (.inl strip)

theorem Plan.KeepsStrips.refl (plan : Plan (ChannelStrip ⊕ ν)) : plan.KeepsStrips plan := ⟨.refl, fun _ _ => id⟩

theorem Plan.keepsStrips_reset (plan : Plan (ChannelStrip ⊕ ν)) : plan.KeepsStrips plan.reset := by
  refine ⟨.single .reset, fun position strip found => ?_⟩
  rw [reset, Array.getElem?_map, found]
  rfl

def Plan.StripsRun (placed : List (Placed (ChannelStrip ⊕ ν))) (plan : Plan (ChannelStrip ⊕ ν)) : Prop :=
  ∀ (position : Nat) place strip, placed[position]? = some place → place.node = .inl strip →
    plan.nodes[position]? = some (.inl strip) ∧ plan.monitor.isFailedAt position = false

theorem Node.process_inl {context : Context} {strip : ChannelStrip} {ports reply : Ports} {outcome : Outcome}
    {next : ChannelStrip ⊕ ν} (answer : Node.process context (.inl strip : ChannelStrip ⊕ ν) ports =
      .ok (outcome, next, reply)) :
    ∃ after, next = .inl after ∧ Node.process context strip ports = .ok (outcome, after, reply) := by
  obtain ⟨⟨_, after, _⟩, answered, wrapped⟩ := bind_eq_ok.mp answer
  cases wrapped
  exact ⟨after, rfl, answered⟩

theorem Node.process_inr {context : Context} {source : ν} {ports reply : Ports} {outcome : Outcome}
    {next : ChannelStrip ⊕ ν} (answer : Node.process context (.inr source : ChannelStrip ⊕ ν) ports =
      .ok (outcome, next, reply)) :
    ∃ after, next = .inr after ∧ Node.process context source ports = .ok (outcome, after, reply) := by
  obtain ⟨⟨_, after, _⟩, answered, wrapped⟩ := bind_eq_ok.mp answer
  cases wrapped
  exact ⟨after, rfl, answered⟩

theorem Block.Renders.typed {block : Block (ChannelStrip ⊕ ν)} (renders : block.Renders)
    (sources : ∀ call ∈ block.calls, ∀ source, call.node = .inr source → call.Typed) :
    ∀ call ∈ block.calls, call.Typed := by
  intro call member
  have answer := Engine.render_answers renders call member
  cases made : call.node with
  | inl strip =>
    rw [made] at answer
    obtain ⟨_, _, answer⟩ := Node.process_inl answer
    exact (ChannelStrip.writes trivial answer).1.accesses
  | inr source => exact sources call member source made

variable {patch : Patch (ChannelStrip ⊕ ν)} {options : CompileOptions} {placed : List (Placed (ChannelStrip ⊕ ν))}
  {survey : Survey}

theorem CompiledFrom.stripsRun {plan : Plan (ChannelStrip ⊕ ν)}
    (compiled : CompiledFrom patch options placed survey plan) : plan.StripsRun placed := by
  intro position place strip item isStrip
  refine ⟨?_, compiled.not_failed position⟩
  obtain ⟨_, _, _, _, _, assembled⟩ := compiled.assembled
  rw [assembled.nodes, List.getElem?_toArray, List.getElem?_map, item, Option.map_some, isStrip]

theorem Plan.StripsRun.kept {plan after : Plan (ChannelStrip ⊕ ν)} (run : plan.StripsRun placed)
    (keeps : plan.KeepsStrips after) : after.StripsRun placed := by
  intro position place strip item isStrip
  obtain ⟨there, alive⟩ := run position place strip item isStrip
  refine ⟨keeps.2 position strip there, ?_⟩
  rw [Monitor.isFailedAt, Plan.touches_failed keeps.1]
  exact alive

namespace Block.Made

variable {block : Block (ChannelStrip ⊕ ν)} {clock : Nat} {losses : List Nat}
  (before : block.before.Serves patch options placed survey) (made : block.Made options.format clock losses)
include before made

/-- A running strip is called, stays as it is and gives its taps. -/
theorem strip_call (run : block.before.StripsRun placed) {position : Nat} {place : Placed (ChannelStrip ⊕ ν)}
    {strip : ChannelStrip} (item : placed[position]? = some place) (isStrip : place.node = .inl strip) :
    ∃ call ∈ block.calls, call.position = position ∧ call.fails = false ∧ call.next = .inl strip ∧
      call.written = (strip.taps options.blockSize call.ports.inputs).buffers strip.channels := by
  obtain ⟨there, alive⟩ := run position place strip item isStrip
  obtain ⟨station, found, stationed⟩ := before.stations.stationed item
  obtain ⟨call, member, rfl⟩ := made.exists_call found alive
  obtain ⟨_, visit⟩ := made.visit member found
  have node := visit.node
  rw [there] at node
  have answer := visit.answer
  rw [← Option.some.inj node] at answer
  obtain ⟨after, next, answer⟩ := Node.process_inl answer
  have blank := visit.blank
  rw [stationed.outputs, isStrip] at blank
  obtain ⟨done, rfl, outputs⟩ := ChannelStrip.process_eq blank answer
  refine ⟨call, member, rfl, by rw [Call.fails, done], next, ?_⟩
  rw [Call.written, done]
  exact outputs

theorem stripsRun (run : block.before.StripsRun placed) : block.after.StripsRun placed := by
  intro position place strip item isStrip
  obtain ⟨call, member, rfl, runs, next, _⟩ := made.strip_call before run item isStrip
  exact ⟨next ▸ made.2.stepped call member, made.alive_after member runs⟩

end Block.Made

theorem Run.stripsRun {first last : Plan (ChannelStrip ⊕ ν)} {blocks : List (Block (ChannelStrip ⊕ ν))}
    (run : Run Plan.KeepsStrips first blocks last) (serves : first.Serves patch options placed survey)
    (orderly : ∀ block ∈ blocks, ∀ call ∈ block.calls, call.Orderly options.format)
    (stripsRun : first.StripsRun placed) : ∀ block ∈ blocks, block.before.StripsRun placed := by
  obtain ⟨_, all⟩ := @Run.invariant _ _ _ _ _ _ _ _ _ _ (·.StripsRun placed) run And.left serves orderly stripsRun
    (fun _ _ keeps _ now => now.kept keeps) fun _ _ _ before _ made now => made.stripsRun before now
  exact fun block member => (all block member).1

end

/-! ## Blocks of a mixer -/

section

variable {ν : Type} {mixer : Mixer} {sources : List (TrackId × ν)}

def Plan.samples {ν : Type} [Node ν] (plan : Plan ν) (id : NodeId) (port : Nat) : Array Sample :=
  ((plan.output? id port).map SignalBuffer.samples).getD #[]

def Plan.taps {ν : Type} [Node ν] (plan : Plan ν) (id : NodeId) : Taps :=
  ⟨plan.samples id ChannelStrip.post, plan.samples id ChannelStrip.pre⟩

theorem Plan.tap_taps {ν : Type} [Node ν] (plan : Plan ν) (id : NodeId) (preFader : Bool) :
    (plan.taps id).tap preFader =
      plan.samples id (if preFader then ChannelStrip.pre else ChannelStrip.post) := by
  cases preFader <;> rfl

/-- What the sources of a mixer wrote in a block, each with the track that it is for. One
that failed or skipped the block was silent. -/
def Mixer.played [Node ν] (mixer : Mixer) (frames : Nat) (sources : List (TrackId × ν))
    (block : Block (ChannelStrip ⊕ ν)) : List (TrackId × Array Sample) :=
  (mixer.sourceNodes sources).map fun (track, id) =>
    (track, ((block.wrote? id 0).map SignalBuffer.samples).getD (mixer.silence frames))

/-- A part's strip makes of its sources what the part makes of what feeds it. -/
theorem Mixer.settle_eq {frames : Nat} {node : MixerNode} {strip : ChannelStrip} {inputs : Inputs}
    (found : mixer.strip? node = some strip) (channels : strip.channels = mixer.channels) :
    strip.taps frames inputs = mixer.settle frames node
      ((inputs.sources 0).map fun source => (source.gain, source.buffer.samples)) := by
  rw [ChannelStrip.taps, Mixer.settle, mute_of_strip? found, channels, found, mixSources_eq, Inputs.isConnected,
    Bool.not_not, List.isEmpty_map]
  rfl

namespace Block.Made

variable [Node ν] {options : CompileOptions} {placed : List (Placed (ChannelStrip ⊕ ν))} {survey : Survey}
  {block : Block (ChannelStrip ⊕ ν)} {clock : Nat} {losses : List Nat}
  (before : block.before.Serves (mixer.patch sources) options placed survey)
  (made : block.Made options.format clock losses) (instant : (mixer.patch sources).Instant)
  (quiet : block.before.Quiet options.format)
include before made instant quiet

theorem source_samples (accepts : ∀ source ∈ sources, mixer.Accepts source) {entry : TrackId × NodeId}
    (member : entry ∈ mixer.sourceNodes sources) : block.after.samples entry.2 0 =
      ((block.wrote? entry.2 0).map SignalBuffer.samples).getD (mixer.silence options.blockSize) := by
  obtain ⟨node, _, present⟩ := Mixer.patch_source member
  obtain ⟨position, item⟩ := before.stations.surveyed.placement.exists_position present
  obtain ⟨spec, output, audio⟩ := Mixer.patch_sourceOutput accepts member
  rw [Plan.samples, made.output_instant before instant quiet item output audio, Option.map_some, Option.getD_some]
  cases block.wrote? entry.2 0 <;> rfl

section

variable (numbered : mixer.Numbered) (valid : mixer.Valid) (accepts : ∀ source ∈ sources, mixer.Accepts source)
include numbered valid accepts

theorem strip_shown {call : Call (ChannelStrip ⊕ ν)} {place : Placed (ChannelStrip ⊕ ν)} (member : call ∈ block.calls)
    (item : placed[call.position]? = some place) {node : MixerNode} (has : mixer.Has node)
    (stands : place.id = mixer.nodeId node) :
    ((call.ports.inputs.sources 0).map fun source => (source.gain, source.buffer.samples)) =
      mixer.inputs (mixer.played options.blockSize sources block) (fun part => block.after.taps (mixer.nodeId part))
        node := by
  have shown := made.shown_instant before instant member item 0
  rw [stands] at shown
  have carried : ((call.ports.inputs.sources 0).map fun source => (source.gain, source.buffer.samples)) =
      (((mixer.patch sources).edgesInto (mixer.nodeId node) 0).map (·.2)).map fun edge =>
        (edge.gain, block.after.samples edge.source edge.sourcePort) := by
    rw [List.map_map, eq_comm, ← List.forall₂_eq_eq_eq, List.forall₂_map_left_iff, List.forall₂_map_right_iff]
    refine shown.imp ?_
    rintro entry source ⟨gain, output⟩
    simp only [Function.comp_apply, Plan.samples, output, Option.map_some, Option.getD_some, gain]
  have tracks : ∀ source ∈ sources, mixer.Has (.track source.1) := fun source member => (accepts source member).track
  rw [carried, Mixer.patch_edgesInto numbered valid tracks has, List.map_append, List.map_map, List.map_map,
    Mixer.inputs, Mixer.played, List.filter_map, List.map_map]
  -- The cables come before the sources among a part's edges, as among its inputs.
  congr 1
  · refine List.map_congr_left fun cable _ => ?_
    rw [Plan.tap_taps]
    rfl
  · refine List.map_congr_left fun entry among => ?_
    have samples := made.source_samples before instant quiet accepts (List.mem_of_mem_filter among)
    simp only [Function.comp_apply, Mixer.sourceEdge, samples]

/-- In a block the strips obey the equations of their parts. -/
theorem settles (run : block.before.StripsRun placed) {node : MixerNode} (has : mixer.Has node) :
    (∀ preFader : Bool, block.after.output? (mixer.nodeId node)
        (if preFader then ChannelStrip.pre else ChannelStrip.post) =
      some (.audio ⟨(block.after.taps (mixer.nodeId node)).tap preFader, max mixer.channels 1⟩)) ∧
    block.after.taps (mixer.nodeId node) = mixer.settle options.blockSize node
      (mixer.inputs (mixer.played options.blockSize sources block)
        (fun part => block.after.taps (mixer.nodeId part)) node) := by
  obtain ⟨strip, found, channels, present⟩ := Mixer.patch_strip numbered sources has
  obtain ⟨position, item⟩ := before.stations.surveyed.placement.exists_position present
  obtain ⟨call, member, rfl, _, _, written⟩ := made.strip_call before run item rfl
  have outputs : ∀ preFader : Bool, block.after.output? (mixer.nodeId node)
      (if preFader then ChannelStrip.pre else ChannelStrip.post) =
        some (.audio ⟨(strip.taps options.blockSize call.ports.inputs).tap preFader, max mixer.channels 1⟩) := by
    intro preFader
    obtain ⟨spec, output, audio⟩ := Mixer.patch_tap numbered sources has preFader
    rw [made.output_instant before instant quiet item output audio, made.wrote?_eq before member item, written,
      channels]
    cases preFader <;> rfl
  have taps : block.after.taps (mixer.nodeId node) = strip.taps options.blockSize call.ports.inputs := by
    have post : block.after.output? (mixer.nodeId node) ChannelStrip.post = _ := outputs false
    have pre : block.after.output? (mixer.nodeId node) ChannelStrip.pre = _ := outputs true
    rw [Plan.taps, Plan.samples, Plan.samples, post, pre]
    rfl
  refine ⟨fun preFader => by rw [outputs, taps], ?_⟩
  rw [taps, Mixer.settle_eq found channels,
    made.strip_shown before instant quiet numbered valid accepts member item has rfl]

end

end Block.Made

section

variable [Node ν] {options : CompileOptions}

theorem Mixer.soundsAt_master {order : List NodeId} {id : NodeId} {port : Nat} (numbered : mixer.Numbered)
    (sounds : (mixer.patch sources).SoundsAt order id port) :
    id = mixer.nodeId .master ∧ port = ChannelStrip.post := by
  obtain rfl := sounds.chosen _ rfl
  obtain ⟨spec, output, audio⟩ := patch_tap numbered sources (show mixer.Has .master from trivial) false
  refine ⟨rfl, Nat.eq_zero_of_not_pos fun later => ?_⟩
  exact sounds.first ChannelStrip.post later spec output (by rw [PortSpec.kind, audio]; rfl)

theorem Mixer.patch_instant (numbered : mixer.Numbered) (valid : mixer.Valid)
    (accepts : ∀ source ∈ sources, mixer.Accepts source)
    (none : ∀ source ∈ sources, max (Node.maxLatency source.2) (Node.latency source.2) ≤ 0) :
    (mixer.patch sources).Instant :=
  fun _ _ path => Nat.le_zero.mp (patch_accumulates numbered valid accepts none path).1

end

end

/-- A lead that is soloed, a backing track that is therefore not heard, and a track
without sources. The lead goes through a group, and from before its fader to an effect
bus, which goes through the group as well. -/
def desk : Mixer :=
  (Mixer.empty 2).addBus { name := "group" } |>.2
    |>.addBus { name := "effect", output := .bus ⟨0⟩ } |>.2
    |>.addTrack { strip := { name := "lead", output := .bus ⟨0⟩, sends := [⟨⟨1⟩, ⟨0x3f000000⟩, true⟩] }, solo := true }
    |>.2.addTrack { strip := { name := "backing" } } |>.2
    |>.addTrack { strip := { name := "spare" } } |>.2

theorem desk_built : desk.Built :=
  .addTrack _ (.addTrack _ (.addTrack _ (.addBus _ (.addBus _ (.empty 2)))))

def deskSources : List (TrackId × Constant) :=
  [(⟨0⟩, ⟨⟨0x3e800000⟩, 2⟩), (⟨1⟩, ⟨1, 2⟩), (⟨0⟩, ⟨⟨0x3f000000⟩, 2⟩)]

theorem desk_validates : desk.validate = .ok () := by decide +kernel

theorem desk_accepts : ∀ source ∈ deskSources, desk.Accepts source := by
  intro source member
  simp only [deskSources, List.mem_cons, List.not_mem_nil, or_false] at member
  rcases member with rfl | rfl | rfl
  · exact ⟨⟨_, .head _⟩, _, rfl, rfl⟩
  · exact ⟨⟨_, .tail _ (.head _)⟩, _, rfl, rfl⟩
  · exact ⟨⟨_, .head _⟩, _, rfl, rfl⟩

theorem desk_renders : ∃ (plan : Plan (ChannelStrip ⊕ Constant)) (first second : Block (ChannelStrip ⊕ Constant)),
    compile (desk.patch deskSources) { blockSize := 2 } = .ok (.ok plan) ∧
      Run Plan.KeepsStrips plan [first, second] second.after ∧ second.before = first.after.reset ∧
      desk.played 2 deskSources second =
        [(⟨0⟩, Array.replicate 4 ⟨0x3e800000⟩), (⟨1⟩, Array.replicate 4 1), (⟨0⟩, Array.replicate 4 ⟨0x3f000000⟩)] := by
  obtain ⟨plan, compiled, ⟨calls, engine, middle, moved⟩, renders, ⟨later, engine', after, ends⟩, again, wrote⟩ :
      ∃ plan, compile (desk.patch deskSources) { blockSize := 2 } = .ok (.ok plan) ∧
      ∃ first, Engine.new.render plan (.start 48000 2) = .ok first ∧
      ∃ second, first.2.1.render first.2.2.1.reset first.2.2.2 = .ok second ∧
        desk.played 2 deskSources ⟨first.2.1, first.2.2.1.reset, first.2.2.2, second.1, second.2.1, second.2.2.1,
          second.2.2.2⟩ = [(⟨0⟩, Array.replicate 4 ⟨0x3e800000⟩), (⟨1⟩, Array.replicate 4 1),
            (⟨0⟩, Array.replicate 4 ⟨0x3f000000⟩)] := by decide +kernel
  let first : Block (ChannelStrip ⊕ Constant) := ⟨.new, plan, .start 48000 2, calls, engine, middle, moved⟩
  let second : Block (ChannelStrip ⊕ Constant) := ⟨engine, middle.reset, moved, later, engine', after, ends⟩
  have begun : Run Plan.KeepsStrips plan [first] middle := @Run.render _ _ _ _ [] _ first .start (.refl plan) renders
  exact ⟨plan, first, second, compiled, @Run.render _ _ _ _ [first] _ second begun middle.keepsStrips_reset again, rfl,
    wrote⟩

end Patchbay
