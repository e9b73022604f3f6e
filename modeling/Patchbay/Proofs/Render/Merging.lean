import Patchbay.Proofs.Render.EventArrival
import Patchbay.Proofs.Render.Refinement
import Patchbay.Proofs.Render.Unfailing

/-! What a port of events answers.

A node that asks for the events at a port gets those of every edge into the port, put
together by a stable sort. The lists of all edges find room in the merge space that
was reserved for the plan, so it makes no difference what the node asked for before.
-/

set_option autoImplicit false

namespace Patchbay

variable {ν Body : Type}

/-- A kind of events: how a signal carries it, how a node asks for it, and the space that
its merges take. Whoever asks is answered a merge, and the space is enough for it wherever
inputs are roomy. -/
structure EventKind (Body : Type) where
  type : PortType
  view : SignalBuffer → Option (EventList Body)
  ask : Inputs → Nat → Option (List (Event Body)) × Inputs
  space : MergeSpace → EventList Body
  viewed : ∀ {format : Format} {buffer}, format.Shapes type buffer → ∃ list, view buffer = some list
  merged : ∀ inputs port, (ask inputs port).1 =
    (mergeEvents (space inputs.space) ((inputs.sources port).map fun source => view source.buffer)).1
  access : ∀ ports port, Ports.Access ports { ports with inputs := (ask ports.inputs port).2 }
  few : ∀ {most} {inputs : Inputs}, inputs.Roomy most → ∀ port, ∀ source ∈ inputs.sources port, ∀ list,
    view source.buffer = some list → list.events.length ≤ most
  room : ∀ {most} {inputs : Inputs}, inputs.Roomy most → ∀ port,
    (inputs.sources port).length * most ≤ (space inputs.space).capacity

def EventKind.midi : EventKind MidiMessage where
  type := .midi
  view := (·.midi?)
  ask := Inputs.midi
  space := (·.midi)
  viewed shapes := by
    cases shapes
    exact ⟨_, rfl⟩
  merged _ _ := rfl
  access ports port := .midiIn port
  few roomy := Inputs.sources_of_forall (by simp) roomy.fewMidi
  room roomy := Inputs.sources_of_forall (by simp) roomy.midi

def EventKind.trigger : EventKind UInt32 where
  type := .trigger
  view := (·.trigger?)
  ask := Inputs.triggers
  space := (·.trigger)
  viewed shapes := by
    cases shapes
    exact ⟨_, rfl⟩
  merged _ _ := rfl
  access ports port := .triggersIn port
  few roomy := Inputs.sources_of_forall (by simp) roomy.fewTriggers
  room roomy := Inputs.sources_of_forall (by simp) roomy.trigger

def Block.Lends (patch : Patch ν) (order : List NodeId) (kind : EventKind Body) (block : Block ν)
    (entry : EdgeId × Edge) (list : EventList Body) : Prop :=
  ∃ feed source, patch.RouteOf order block.before.layout.stations entry.1 feed ∧
    block.Shows entry.2 feed source ∧ kind.view source.buffer = some list

/-- Whatever a called node did with its ports before, it is answered the events of all
edges into a port, by frame, ties in the order of the edges. It is answered nothing if no
edge leads into the port, and no event is dropped. -/
def Block.Merges (patch : Patch ν) (order : List NodeId) (kind : EventKind Body) (block : Block ν)
    (call : Call ν) (id : NodeId) (port : Nat) : Prop :=
  ∃ entries lists, patch.ListsInto id port entries ∧
    List.Forall₂ (block.Lends patch order kind) entries lists ∧
    ∀ now, call.ports.Accesses now →
      (kind.ask now.inputs port).1 =
        (if entries = [] then none else some ((lists.flatMap (·.events)).mergeSort Event.noLater)) ∧
      now.inputs.dropped = 0 ∧ (kind.ask now.inputs port).2.dropped = 0

/-! ## One port -/

theorem EventKind.ask_eq (kind : EventKind Body) {most port : Nat} {inputs : Inputs} (roomy : inputs.Roomy most)
    {lists : List (EventList Body)}
    (listed : List.Forall₂ (fun source list => kind.view source.buffer = some list) (inputs.sources port) lists) :
    (kind.ask inputs port).1 =
      if lists = [] then none else some ((lists.flatMap (·.events)).mergeSort Event.noLater) := by
  have same : (inputs.sources port).map (fun source => kind.view source.buffer) = lists.map some := by
    rw [← List.forall₂_eq_eq_eq, List.forall₂_map_left_iff, List.forall₂_map_right_iff]
    exact listed
  have few : ∀ list ∈ lists, list.events.length ≤ most := by
    intro list member
    obtain ⟨source, among, found⟩ := exists_of_mem_right listed member
    exact kind.few roomy port source among list found
  rw [kind.merged, same, mergeEvents_eq few (listed.length_eq ▸ kind.room roomy port),
    Event.sortByFrame_eq_mergeSort]

section

variable [Node ν] {patch : Patch ν} {options : CompileOptions} {placed : List (Placed ν)} {survey : Survey}
  {block : Block ν} {clock : Nat} {losses : List Nat} {call : Call ν} {place : Placed ν}

theorem Block.Made.merges (before : block.before.Serves patch options placed survey)
    (made : block.Made options.format clock losses) (member : call ∈ block.calls)
    (item : placed[call.position]? = some place) {port : Nat} {spec : PortSpec}
    (declared : patch.InputAt place.id port spec) (kind : EventKind Body) (typed : spec.type = kind.type) :
    block.Merges patch (placed.map (·.id)) kind call place.id port := by
  obtain ⟨station, found, _⟩ := before.stations.stationed item
  obtain ⟨_, visit⟩ := made.visit member found
  have roomy := made.roomy before.ready member
  have each : ∀ source ∈ call.ports.inputs.sources port, ∃ list, kind.view source.buffer = some list := by
    intro source among
    obtain ⟨other, declared', shapes⟩ := made.shapes_shown before member item port source among
    rw [← declared.unique declared', typed] at shapes
    exact kind.viewed shapes
  obtain ⟨lists, listed⟩ := exists_forall₂ each
  have shown := before.stations.shown item found visit.shown port
  refine ⟨_, lists, ⟨Patch.mem_edgesInto, Patch.edgesInto_pairwise _ _⟩, ?_, fun now uses => ?_⟩
  · refine forall₂_comp ?_ shown listed
    rintro ⟨id, edge⟩ source list ⟨dest, producer, type, feed, routed, routeOf, seen⟩ carries
    exact ⟨feed, source, routeOf, made.shows before (before.rendered made.2) item dest found visit routed seen, carries⟩
  · -- Nothing that the node does changes its sources or the room for merges.
    have sources : now.inputs.sources port = call.ports.inputs.sources port := by
      unfold Inputs.sources
      rw [uses.sources_eq]
    have still := roomy.alike uses.sources_eq uses.alike
    have none : lists = [] ↔ patch.edgesInto place.id port = [] := by
      rw [← List.length_eq_zero_iff, ← List.length_eq_zero_iff, ← listed.length_eq, shown.length_eq]
    refine ⟨?_, ?_, ?_⟩
    · rw [kind.ask_eq still (sources.symm ▸ listed)]
      simp only [none]
    · exact (uses.dropped_eq roomy).trans visit.fresh
    · exact (Ports.Accesses.dropped_eq (uses.tail (kind.access now port)) roomy).trans visit.fresh

end

/-! ## Two tickers into one -/

def chorus : Patch Ticker where
  nodes := #[some ⟨[[2, 0]], 0, []⟩, some ⟨[[2, 1]], 0, []⟩, some ⟨[], 0, [.audio "out" 1]⟩]
  edges := #[some ⟨⟨0⟩, 0, ⟨2⟩, 0, 1⟩, some ⟨⟨1⟩, 0, ⟨2⟩, 0, 1⟩]
  sink := none

end Patchbay
