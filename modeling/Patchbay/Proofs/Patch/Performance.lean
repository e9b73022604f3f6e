import Patchbay.Proofs.Node.Play
import Patchbay.Proofs.Plan.Wiring

/-! What a patch of library nodes plays.

The frames of all nodes solve a system of equations that speaks of no blocks: every
node goes through the sum of what its edges bring, one frame after another. A frame
only depends on earlier frames and on the nodes that lead there.
-/

set_option autoImplicit false

namespace Patchbay

namespace Patch

def connected (patch : Patch Builtin) (id : NodeId) : Bool := !(patch.edgesInto id 0).isEmpty

/-- What the edges into a node bring at some time, where each edge is late by its
lag. -/
def incoming (patch : Patch Builtin) (lag : Edge → Nat) (stream : NodeId → Nat → List (Array Sample))
    (id : NodeId) (channels index : Nat) : Array Sample :=
  mixFrames channels ((patch.edgesInto id 0).map fun entry => (entry.2.gain,
    audible channels (earlierBy (lag entry.2) (stream entry.2.source entry.2.sourcePort) index)))

/-- The streams that the output ports of a patch give for `total` frames. -/
structure Performs (patch : Patch Builtin) (lag : Edge → Nat) (total : Nat)
    (stream : NodeId → Nat → List (Array Sample)) : Prop where
  plays : ∀ {id node}, patch.node? id = some node → ∀ port < (Node.outputs node).length,
    stream id port = (stepAll (Builtin.tick (patch.connected id)) node
      ((List.range total).map (patch.incoming lag stream id node.channels))).1.map (·.getD port #[])

/-- Some frames are what a port plays in a performance, after a wait. -/
structure SoundsThrough (patch : Patch Builtin) (lag : Edge → Nat) (id : NodeId) (port channels wait total : Nat)
    (stream : NodeId → Nat → List (Array Sample)) (frames : List (Array Sample)) : Prop where
  performs : patch.Performs lag total stream
  length : (stream id port).length = total
  frames : frames = late channels wait (stream id port)

variable {patch other : Patch Builtin} {lag lag' : Edge → Nat} {total total' : Nat}
  {stream stream' : NodeId → Nat → List (Array Sample)}

theorem Performs.length (performs : patch.Performs lag total stream) {id : NodeId} {node : Builtin}
    (present : patch.node? id = some node) {port : Nat} (inside : port < (Node.outputs node).length) :
    (stream id port).length = total := by
  rw [performs.plays present port inside, List.length_map, length_stepAll, List.length_map, List.length_range]

theorem incoming_congr {id : NodeId} {channels count index : Nat} (inside : index < count)
    (edges : other.edgesInto id 0 = patch.edgesInto id 0)
    (same : ∀ entry ∈ patch.edgesInto id 0, lag' entry.2 = lag entry.2 ∧
      (stream' entry.2.source entry.2.sourcePort).take count = (stream entry.2.source entry.2.sourcePort).take count) :
    other.incoming lag' stream' id channels index = patch.incoming lag stream id channels index := by
  unfold incoming
  rw [edges]
  congr 1
  refine List.map_congr_left fun entry member => ?_
  obtain ⟨lags, begins⟩ := same entry member
  rw [lags, earlierBy_congr begins inside]

/-- Nodes that are alike in two patches, with all that leads to them, play the same
for as long as both play. -/
theorem Performs.agree (performs : patch.Performs lag total stream) (performs' : other.Performs lag' total' stream')
    {rank : NodeId → Nat} (ranked : ∀ source dest, patch.Feeds source dest → rank source < rank dest)
    (among : NodeId → Prop)
    (alike : ∀ id, among id → other.node? id = patch.node? id ∧ other.edgesInto id 0 = patch.edgesInto id 0)
    (closed : ∀ id, among id → ∀ entry ∈ patch.edgesInto id 0, among entry.2.source ∧ lag' entry.2 = lag entry.2 ∧
      ∃ node, patch.node? entry.2.source = some node ∧ entry.2.sourcePort < (Node.outputs node).length)
    {count : Nat} (within : count ≤ total) (within' : count ≤ total') :
    ∀ {id : NodeId} {node : Builtin}, among id → patch.node? id = some node →
      ∀ port < (Node.outputs node).length, (stream' id port).take count = (stream id port).take count := by
  intro id node
  -- By the rank of the node: what feeds it has a lower one.
  induction ranks : rank id using Nat.strong_induction_on generalizing id node with
  | _ height ih =>
    subst ranks
    intro member present port inside
    obtain ⟨nodes, edges⟩ := alike id member
    have heard : ∀ index < count, other.incoming lag' stream' id node.channels index =
        patch.incoming lag stream id node.channels index := by
      intro index early
      refine incoming_congr early edges fun entry into => ?_
      obtain ⟨source, lags, feeder, there, atPort⟩ := closed id member entry into
      obtain ⟨found, dest, _⟩ := mem_edgesInto.mp into
      exact ⟨lags, ih _ (ranked _ _ ⟨entry.1, entry.2, found, rfl, dest⟩) rfl source there _ atPort⟩
    have same : connected other id = connected patch id := by
      unfold connected
      rw [edges]
    rw [performs.plays present port inside, performs'.plays (nodes.trans present) port inside, same, ← List.map_take,
      ← List.map_take, ← stepAll_take, ← stepAll_take, ← List.map_take, ← List.map_take, List.take_range,
      List.take_range, Nat.min_eq_left within, Nat.min_eq_left within',
      List.map_congr_left fun index early => heard index (List.mem_range.mp early)]

theorem SoundsThrough.length_frames {id : NodeId} {port channels wait : Nat} {frames : List (Array Sample)}
    (sounds : patch.SoundsThrough lag id port channels wait total stream frames) : frames.length = total := by
  rw [sounds.frames, length_late, sounds.length]

theorem SoundsThrough.agree {id : NodeId} {port channels wait count : Nat} {frames frames' : List (Array Sample)}
    (sounds : patch.SoundsThrough lag id port channels wait total stream frames)
    (sounds' : other.SoundsThrough lag' id port channels wait total' stream' frames')
    (begins : (stream' id port).take count = (stream id port).take count) :
    frames'.take count = frames.take count := by
  rw [sounds.frames, sounds'.frames, late_take, late_take, begins]

theorem exists_feeder (fits : ∀ id edge, patch.edge? id = some edge → patch.Fits edge) {id : NodeId} {port : Nat}
    {entry : EdgeId × Edge} (into : entry ∈ patch.edgesInto id port) :
    ∃ node, patch.node? entry.2.source = some node ∧ entry.2.sourcePort < (Node.outputs node).length := by
  obtain ⟨_, _, ⟨node, present, atPort⟩, _⟩ := fits _ _ (mem_edgesInto.mp into).1
  exact ⟨node, present, (List.getElem?_eq_some_iff.mp atPort).1⟩

end Patch

end Patchbay
