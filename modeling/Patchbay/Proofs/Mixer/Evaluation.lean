import Mathlib.Logic.Function.Basic
import Patchbay.Proofs.Mixer.Flatten
import Patchbay.Proofs.Node.Play

/-! What a mixer sounds like.

A mixer is evaluated along its render order: each part sums what feeds it, in the
order of the cables, and gives the sum behind and before its fader. In a valid mixer
everything that feeds a part has been evaluated before it, so any signals that obey
the equations of the parts are the evaluation.
-/

set_option autoImplicit false

namespace Patchbay

/-- One pass over items that each depend on those before them: it finds the only
values that obey all equations. -/
theorem InTurn.foldl_eq {α β : Type} [DecidableEq α] {feeds : α → α → Prop} {before items : List α}
    (inTurn : InTurn feeds before items) {step : (α → β) → α → β}
    (reads : ∀ item values others, (∀ source, feeds source item → values source = others source) →
      step values item = step others item)
    {values settled : α → β} (known : ∀ item ∈ before, values item = settled item)
    (consistent : ∀ item ∈ items, settled item = step settled item) : ∀ item ∈ before ++ items,
      items.foldl (fun values item => Function.update values item (step values item)) values item = settled item := by
  induction items generalizing before values with
  | nil => simpa using known
  | cons next rest ih =>
    rw [List.append_cons]
    refine ih inTurn.2 ?_ fun item member => consistent item (List.mem_cons_of_mem next member)
    intro item member
    dsimp only
    by_cases new : item = next
    · rw [new, Function.update_self, consistent next List.mem_cons_self]
      exact reads next values settled fun source fed => known source (inTurn.1 source fed)
    · rw [Function.update_of_ne new]
      exact known item ((List.mem_append.mp member).resolve_right fun last => new (List.mem_singleton.mp last))

namespace Mixer

variable {mixer : Mixer} {frames : Nat} {played : List (TrackId × Array Sample)}

/-! ## Evaluation -/

/-- The part is muted, or it is a track that is not soloed while some track is. -/
def isSilenced (mixer : Mixer) : MixerNode → Bool
  | .track id => (mixer.track? id).any fun track =>
      track.strip.mute || (mixer.tracks.any (·.2.solo) && !track.solo)
  | .bus id => (mixer.bus? id).any (·.mute)
  | .master => false

def silence (mixer : Mixer) (frames : Nat) : Array Sample := Array.replicate (frames * max mixer.channels 1) 0

/-- Everything that feeds a part, each with its gain: the taps that its cables lead from,
and what was played on a track. -/
def inputs (mixer : Mixer) (played : List (TrackId × Array Sample)) (taps : MixerNode → Taps) (node : MixerNode) :
    List (Sample × Array Sample) :=
  (mixer.cables.filter (·.dest = node)).map (fun cable => (cable.gain, (taps cable.source).tap cable.preFader))
    ++ (played.filter (.track ·.1 = node)).map fun source => (1, source.2)

def settle (mixer : Mixer) (frames : Nat) (node : MixerNode) (inputs : List (Sample × Array Sample)) : Taps :=
  if mixer.isSilenced node || inputs.isEmpty then ⟨mixer.silence frames, mixer.silence frames⟩
  else
    let sum := inputs.foldl (fun sum (gain, samples) => addScaled sum samples gain) (mixer.silence frames)
    ⟨((mixer.strip? node).map (·.fade (max mixer.channels 1) sum)).getD sum, sum⟩

/-- What all parts give, evaluated one after another in render order. -/
def evaluate (mixer : Mixer) (frames : Nat) (played : List (TrackId × Array Sample)) : MixerNode → Taps :=
  mixer.renderOrder.foldl
    (fun taps node => Function.update taps node (mixer.settle frames node (mixer.inputs played taps node)))
    fun _ => ⟨mixer.silence frames, mixer.silence frames⟩

theorem mute_of_strip? {node : MixerNode} {strip : ChannelStrip} (found : mixer.strip? node = some strip) :
    strip.mute = mixer.isSilenced node := by
  cases node with
  | track id =>
    obtain ⟨track, there, rfl⟩ := Option.map_eq_some_iff.mp found
    rw [isSilenced, there]
    rfl
  | bus id =>
    obtain ⟨bus, there, rfl⟩ := Option.map_eq_some_iff.mp found
    rw [isSilenced, there]
    rfl
  | master =>
    cases found
    rfl

theorem inputs_congr {taps others : MixerNode → Taps} {node : MixerNode}
    (same : ∀ source, mixer.Feeds source node → taps source = others source) :
    mixer.inputs played taps node = mixer.inputs played others node := by
  unfold inputs
  congr 1
  refine List.map_congr_left fun cable member => ?_
  obtain ⟨among, dest⟩ := List.mem_filter.mp member
  rw [same cable.source ⟨cable, among, rfl, of_decide_eq_true dest⟩]

/-- Signals that obey the equations of all parts are the evaluation. -/
theorem evaluate_eq (numbered : mixer.Numbered) (valid : mixer.Valid) {settled : MixerNode → Taps}
    (consistent : ∀ node, mixer.Has node →
      settled node = mixer.settle frames node (mixer.inputs played settled node)) {node : MixerNode}
    (has : mixer.Has node) : mixer.evaluate frames played node = settled node := by
  have placed : node ∈ [] ++ mixer.renderOrder := valid.mem_renderOrder.mpr has
  refine (renderOrder_inTurn numbered valid).foldl_eq ?_ (fun _ known => absurd known List.not_mem_nil)
    (fun node member => consistent node (valid.mem_renderOrder.mp member)) node placed
  intro node taps others same
  exact congrArg (mixer.settle frames node) (inputs_congr same)

end Mixer

end Patchbay
