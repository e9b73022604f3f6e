import Patchbay.Node.Builtin
import Patchbay.Proofs.Patch.Operations

/-! Which nodes lead to which when a node is bypassed or spliced in.

Either edit changes the edges around one node, and what is joined through that node in
the one patch is joined directly in the other. A path that avoids the node at both of its ends
carries over, however often it comes by the node on the way.
-/

set_option autoImplicit false

namespace Patchbay

open Relation

section

variable {α : Type} {feeds : α → α → Prop} {gone source dest : α}

/-- Other items that are joined directly, or through one that is taken out. -/
def Bridged (feeds : α → α → Prop) (gone source dest : α) : Prop :=
  source ≠ gone ∧ dest ≠ gone ∧ (feeds source dest ∨ feeds source gone ∧ feeds gone dest)

theorem Bridged.path (bridged : Bridged feeds gone source dest) : TransGen feeds source dest := by
  rcases bridged.2.2 with direct | ⟨first, second⟩
  · exact .single direct
  · exact .tail (.single first) second

/-- Where a path has come to: to an item that the bridges lead to as well, or to the
one that is taken out, from such an item. -/
theorem path_bridged (away : source ≠ gone) (path : TransGen feeds source dest) :
    (dest ≠ gone → TransGen (Bridged feeds gone) source dest) ∧
    (dest = gone → ∃ last, ReflTransGen (Bridged feeds gone) source last ∧ last ≠ gone ∧ feeds last gone) := by
  induction path with
  | @single dest step =>
    constructor
    · intro apart
      exact .single ⟨away, apart, .inl step⟩
    · rintro rfl
      exact ⟨source, .refl, away, step⟩
  | @tail middle dest _ step ih =>
    by_cases through : middle = gone
    · subst through
      obtain ⟨last, sooner, apart, enters⟩ := ih.2 rfl
      constructor
      · intro leaves
        exact .tail' sooner ⟨apart, leaves, .inr ⟨enters, step⟩⟩
      · -- It feeds itself, which no path needs.
        intro
        exact ⟨last, sooner, apart, enters⟩
    · have sooner := ih.1 through
      constructor
      · intro apart
        exact sooner.tail ⟨through, apart, .inl step⟩
      · rintro rfl
        exact ⟨middle, sooner.to_reflTransGen, through, step⟩

theorem transGen_bridged (away : source ≠ gone) (apart : dest ≠ gone) :
    TransGen (Bridged feeds gone) source dest ↔ TransGen feeds source dest := by
  constructor
  · intro path
    exact TransGen.closed (fun _ _ => Bridged.path) _ _ path
  · intro path
    exact (path_bridged away path).1 apart

/-- There is no cycle exactly if there is none among the bridges and the item that is
taken out does not feed itself. -/
theorem acyclic_bridged : (∀ item, ¬ TransGen feeds item item) ↔
    (∀ item, ¬ TransGen (Bridged feeds gone) item item) ∧ ¬ feeds gone gone := by
  constructor
  · intro acyclic
    refine ⟨?_, fun own => acyclic gone (.single own)⟩
    intro item cycle
    exact acyclic item (TransGen.closed (fun _ _ => Bridged.path) _ _ cycle)
  · rintro ⟨acyclic, own⟩ item cycle
    by_cases same : item = gone
    · subst same
      obtain ⟨next, out, back⟩ := TransGen.head'_iff.mp cycle
      have apart : next ≠ item := by
        rintro rfl
        exact own out
      -- The cycle can begin at the next item as well.
      exact acyclic next ((transGen_bridged apart apart).mpr (.tail' back out))
    · exact acyclic item ((transGen_bridged same same).mpr cycle)

end

namespace Patch

variable {ν : Type} {patch rest : Patch ν}

/-! ## Edges after an edit -/

theorem feeds_iff {source dest : NodeId} :
    patch.Feeds source dest ↔ ∃ edge, some edge ∈ patch.edges ∧ edge.source = source ∧ edge.dest = dest := by
  simp only [Feeds, edge?, Option.join_eq_some_iff, Array.mem_iff_getElem?]
  constructor
  · rintro ⟨id, edge, found, ends⟩
    exact ⟨edge, ⟨id.index, found⟩, ends⟩
  · rintro ⟨edge, ⟨index, found⟩, ends⟩
    exact ⟨⟨index⟩, edge, found, ends⟩

theorem foldl_connect_feeds (edges : List Edge) {source dest : NodeId} :
    (edges.foldl (fun patch edge => (patch.connect edge).2) patch).Feeds source dest ↔
      patch.Feeds source dest ∨ ∃ edge ∈ edges, edge.source = source ∧ edge.dest = dest := by
  rw [foldl_connect, feeds_iff, feeds_iff]
  simp only [Array.mem_append, List.mem_toArray, List.mem_map, Option.some.injEq, exists_eq_right, or_and_right,
    exists_or]

theorem connect_feeds (edge : Edge) {source dest : NodeId} : (patch.connect edge).2.Feeds source dest ↔
    patch.Feeds source dest ∨ edge.source = source ∧ edge.dest = dest := by
  have joins := @foldl_connect_feeds ν patch [edge] source dest
  simpa using joins

theorem mem_bridges {incoming outgoing : List Edge} {source dest : NodeId} :
    (∃ edge ∈ bridges incoming outgoing, edge.source = source ∧ edge.dest = dest) ↔
      (∃ before ∈ incoming, before.source = source) ∧ ∃ after ∈ outgoing, after.dest = dest := by
  simp only [bridges, List.mem_flatMap, List.mem_map]
  constructor
  · rintro ⟨_, ⟨before, first, after, second, rfl⟩, rfl, rfl⟩
    exact ⟨⟨before, first, rfl⟩, after, second, rfl⟩
  · rintro ⟨⟨before, first, rfl⟩, after, second, rfl⟩
    exact ⟨_, ⟨before, first, after, second, rfl⟩, rfl, rfl⟩

theorem mem_edges {edge : Edge} : edge ∈ patch.liveEdges.map Prod.snd ↔ ∃ id, patch.edge? id = some edge := by
  simp only [List.mem_map, Prod.exists, mem_liveEdges, exists_eq_right]

theorem neighbour_iff (here there : Edge → NodeId) {id other : NodeId} :
    (∃ edge ∈ (patch.liveEdges.map Prod.snd).filter fun edge => here edge = id ∧ there edge ≠ id,
      there edge = other) ↔
    (∃ place edge, patch.edge? place = some edge ∧ here edge = id ∧ there edge = other) ∧ other ≠ id := by
  simp only [List.mem_filter, mem_edges, decide_eq_true_eq]
  constructor
  · rintro ⟨edge, ⟨⟨place, found⟩, at_, apart⟩, rfl⟩
    exact ⟨⟨place, edge, found, at_, rfl⟩, apart⟩
  · rintro ⟨⟨place, edge, found, at_, rfl⟩, apart⟩
    exact ⟨edge, ⟨⟨place, found⟩, at_, apart⟩, rfl⟩

/-- After a bypass, those nodes feed each other that did so directly or through the
node that is gone. -/
theorem bypass_feeds {gone : NodeId} {removed : ν} (bypasses : patch.bypass gone = .ok (removed, rest)) :
    rest.Feeds = Bridged patch.Feeds gone := by
  obtain ⟨without, removes, rfl⟩ := bypass_spec bypasses
  funext source dest
  apply propext
  rw [foldl_connect_feeds, mem_bridges, remove_feeds_iff removes, neighbour_iff Edge.dest Edge.source,
    neighbour_iff Edge.source Edge.dest]
  -- The edges on the near side of the node are listed by their far ends.
  have entered : (∃ place edge, patch.edge? place = some edge ∧ edge.dest = gone ∧ edge.source = source) ↔
      patch.Feeds source gone := exists₂_congr fun _ _ => and_congr_right fun _ => and_comm
  have left : (∃ place edge, patch.edge? place = some edge ∧ edge.source = gone ∧ edge.dest = dest) ↔
      patch.Feeds gone dest := Iff.rfl
  rw [entered, left]
  unfold Bridged
  tauto

/-! ## Splicing -/

theorem disconnect_feeds {spliced : EdgeId} {edge : Edge} (found : patch.edge? spliced = some edge)
    {source dest : NodeId} : patch.Feeds source dest ↔
      (patch.disconnect spliced).2.Feeds source dest ∨ edge.source = source ∧ edge.dest = dest := by
  unfold Feeds
  rw [disconnect_edge?]
  constructor
  · rintro ⟨id, other, present, ends⟩
    by_cases same : id = spliced
    · subst same
      cases found.symm.trans present
      exact .inr ends
    · exact .inl ⟨id, other, by rwa [Function.update_of_ne same], ends⟩
  · rintro (⟨id, other, present, ends⟩ | ends)
    · by_cases same : id = spliced
      · subst same
        rw [Function.update_self] at present
        cases present
      · exact ⟨id, other, by rwa [Function.update_of_ne same] at present, ends⟩
    · exact ⟨spliced, edge, found, ends⟩

section

variable {before after id : NodeId} {node : ν} (inserts : patch.insertBetween before after node = .ok (id, rest))
include inserts

/-- Of the edge between two nodes come two edges, to the node between them and from it. -/
theorem insertBetween_feeds : ∃ kept : NodeId → NodeId → Prop,
    (∀ source dest, patch.Feeds source dest ↔ kept source dest ∨ before = source ∧ after = dest) ∧
    ∀ source dest, rest.Feeds source dest ↔
      (kept source dest ∨ before = source ∧ id = dest) ∨ id = source ∧ after = dest := by
  obtain ⟨spliced, edge, found, rfl, rfl⟩ := insertBetween_spec inserts
  obtain ⟨present, rfl, rfl⟩ := between?_spec found
  -- What is kept are the edges but for the one that is taken out.
  refine ⟨(patch.disconnect spliced).2.Feeds, fun _ _ => disconnect_feeds present, ?_⟩
  intro source dest
  rw [connect_feeds, connect_feeds]
  rfl

theorem insertBetween_id : id = ⟨patch.nodes.size⟩ := by
  obtain ⟨spliced, _, _, rfl, _⟩ := insertBetween_spec inserts
  simp [add, disconnect_rest]

theorem insertBetween_node? : rest.node? = Function.update patch.node? id (some node) := by
  obtain ⟨spliced, edge, _, rfl, rfl⟩ := insertBetween_spec inserts
  rw [connect_node?, connect_node?, add_node?]
  unfold node?
  rw [(disconnect_rest spliced).1]

theorem insertBetween_sink : rest.sink = patch.sink := by
  obtain ⟨spliced, edge, _, rfl, rfl⟩ := insertBetween_spec inserts
  exact (disconnect_rest spliced).2.1

theorem insertBetween_new : ¬ patch.Live id := by
  rw [insertBetween_id inserts]
  rintro ⟨_, present⟩
  exact Nat.lt_irrefl _ (lt_size_of_node? present)

variable (joined : patch.Joined)
include joined

theorem insertBetween_apart {source dest : NodeId} (feeds : patch.Feeds source dest) : source ≠ id ∧ dest ≠ id := by
  have new := insertBetween_new inserts
  obtain ⟨place, edge, found, rfl, rfl⟩ := feeds
  obtain ⟨first, second⟩ := joined found
  exact ⟨fun same => new (same ▸ first), fun same => new (same ▸ second)⟩

theorem insertBetween_ends : before ≠ id ∧ after ≠ id := by
  obtain ⟨kept, whole, _⟩ := insertBetween_feeds inserts
  exact insertBetween_apart inserts joined ((whole before after).mpr (.inr ⟨rfl, rfl⟩))

theorem insertBetween_enters {source : NodeId} : rest.Feeds source id ↔ source = before := by
  obtain ⟨kept, whole, spliced⟩ := insertBetween_feeds inserts
  rw [spliced]
  constructor
  · rintro ((still | ⟨rfl, _⟩) | ⟨_, same⟩)
    · exact absurd rfl (insertBetween_apart inserts joined ((whole _ _).mpr (.inl still))).2
    · rfl
    · exact absurd same (insertBetween_ends inserts joined).2
  · rintro rfl
    exact .inl (.inr ⟨rfl, rfl⟩)

theorem insertBetween_leaves {dest : NodeId} : rest.Feeds id dest ↔ dest = after := by
  obtain ⟨kept, whole, spliced⟩ := insertBetween_feeds inserts
  rw [spliced]
  constructor
  · rintro ((still | ⟨same, _⟩) | ⟨_, rfl⟩)
    · exact absurd rfl (insertBetween_apart inserts joined ((whole _ _).mpr (.inl still))).1
    · exact absurd same (insertBetween_ends inserts joined).1
    · rfl
  · rintro rfl
    exact .inr ⟨rfl, rfl⟩

theorem insertBetween_bridged : patch.Feeds = Bridged rest.Feeds id := by
  obtain ⟨kept, whole, spliced⟩ := insertBetween_feeds inserts
  funext source dest
  apply propext
  constructor
  · intro feeds
    obtain ⟨first, second⟩ := insertBetween_apart inserts joined feeds
    refine ⟨first, second, ?_⟩
    -- The edge is still there, or it is the one that was taken out.
    rcases (whole source dest).mp feeds with still | ⟨rfl, rfl⟩
    · exact .inl ((spliced source dest).mpr (.inl (.inl still)))
    · exact .inr ⟨(insertBetween_enters inserts joined).mpr rfl, (insertBetween_leaves inserts joined).mpr rfl⟩
  · rintro ⟨first, second, direct | ⟨into, out⟩⟩
    · rcases (spliced source dest).mp direct with (still | ⟨_, same⟩) | ⟨same, _⟩
      · exact (whole source dest).mpr (.inl still)
      · exact absurd same.symm second
      · exact absurd same.symm first
    · rw [insertBetween_enters inserts joined] at into
      rw [insertBetween_leaves inserts joined] at out
      exact (whole source dest).mpr (.inr ⟨into.symm, out.symm⟩)

end

/-! ## What leads where -/

def FeedsSink (patch : Patch ν) (source : NodeId) : Prop :=
  ∃ sink, patch.sink = some sink ∧ TransGen patch.Feeds source sink

/-- The nodes that are left lead to each other as before, so there is no new cycle, and
what fed the sink still does unless the sink is what is gone. -/
structure Bypassed (patch : Patch ν) (gone : NodeId) (rest : Patch ν) : Prop where
  live : ∀ id, rest.Live id ↔ patch.Live id ∧ id ≠ gone
  paths : ∀ source dest, source ≠ gone → dest ≠ gone →
    (TransGen rest.Feeds source dest ↔ TransGen patch.Feeds source dest)
  acyclic : patch.Acyclic ↔ rest.Acyclic ∧ ¬ patch.Feeds gone gone
  fed : patch.sink ≠ some gone → ∀ source, source ≠ gone → patch.FeedsSink source → rest.FeedsSink source

/-- The nodes that were there lead to each other as before. The new node stands behind
one of them, and what leads to it, and in front of another one, and what that leads to. -/
structure Spliced (patch : Patch ν) (before after id : NodeId) (rest : Patch ν) : Prop where
  new : ¬ patch.Live id
  live : ∀ other, rest.Live other ↔ patch.Live other ∨ other = id
  paths : ∀ source dest, source ≠ id → dest ≠ id →
    (TransGen rest.Feeds source dest ↔ TransGen patch.Feeds source dest)
  reached : ∀ source, source ≠ id → (TransGen rest.Feeds source id ↔ ReflTransGen patch.Feeds source before)
  reaches : ∀ dest, dest ≠ id → (TransGen rest.Feeds id dest ↔ ReflTransGen patch.Feeds after dest)
  acyclic : patch.Acyclic ↔ rest.Acyclic
  fed : ∀ source, patch.FeedsSink source → rest.FeedsSink source

theorem bypassed {gone : NodeId} {removed : ν} (bypasses : patch.bypass gone = .ok (removed, rest)) :
    Bypassed patch gone rest := by
  have feeds := bypass_feeds bypasses
  obtain ⟨without, removes, joins⟩ := bypass_spec bypasses
  rw [foldl_connect] at joins
  have paths : ∀ source dest, source ≠ gone → dest ≠ gone →
      (TransGen rest.Feeds source dest ↔ TransGen patch.Feeds source dest) := by
    intro source dest away apart
    rw [feeds]
    exact transGen_bridged away apart
  refine ⟨?_, paths, ?_, ?_⟩
  · intro id
    have same : rest.Live id ↔ without.Live id := by rw [joins]; rfl
    rw [same, Live]
    by_cases here : id = gone
    · simp [here, remove_node?_self removes]
    · simp [here, remove_node? removes here, Live]
  · unfold Acyclic
    rw [feeds]
    exact acyclic_bridged
  · rintro other source away ⟨sink, chosen, path⟩
    have apart : sink ≠ gone := by
      rintro rfl
      exact other chosen
    refine ⟨sink, ?_, (paths source sink away apart).mpr path⟩
    rw [joins]
    exact (remove_sink removes).mpr ⟨chosen, apart⟩

section

variable (joined : patch.Joined) {before after id : NodeId} {node : ν}
  (inserts : patch.insertBetween before after node = .ok (id, rest))
include joined inserts

theorem insertBetween_paths {source dest : NodeId} (away : source ≠ id) (apart : dest ≠ id) :
    TransGen rest.Feeds source dest ↔ TransGen patch.Feeds source dest := by
  rw [insertBetween_bridged inserts joined]
  exact (transGen_bridged away apart).symm

theorem insertBetween_leads {source dest : NodeId} (away : source ≠ id) (apart : dest ≠ id) :
    ReflTransGen rest.Feeds source dest ↔ ReflTransGen patch.Feeds source dest := by
  rw [reflTransGen_iff_eq_or_transGen, reflTransGen_iff_eq_or_transGen, insertBetween_paths joined inserts away apart]

theorem spliced : Spliced patch before after id rest := by
  obtain ⟨front, back⟩ := insertBetween_ends inserts joined
  refine ⟨insertBetween_new inserts, ?_, fun _ _ => insertBetween_paths joined inserts, ?_, ?_, ?_, ?_⟩
  · intro other
    rw [Live, insertBetween_node? inserts]
    by_cases here : other = id
    · simp [here]
    · simp [here, Live]
  · intro source away
    simp only [TransGen.tail'_iff, insertBetween_enters inserts joined, exists_eq_right]
    exact insertBetween_leads joined inserts away front
  · intro dest apart
    simp only [TransGen.head'_iff, insertBetween_leaves inserts joined, exists_eq_left]
    exact insertBetween_leads joined inserts back apart
  · have own : ¬ rest.Feeds id id := by
      rw [insertBetween_enters inserts joined]
      exact front.symm
    unfold Acyclic
    rw [insertBetween_bridged inserts joined]
    exact (and_iff_left own).symm.trans acyclic_bridged.symm
  · rintro source ⟨sink, chosen, path⟩
    -- No path that was there begins or ends at the new node.
    obtain ⟨_, first, _⟩ := TransGen.head'_iff.mp path
    obtain ⟨_, _, last⟩ := TransGen.tail'_iff.mp path
    have away := (insertBetween_apart inserts joined first).1
    have apart := (insertBetween_apart inserts joined last).2
    exact ⟨sink, (insertBetween_sink inserts).trans chosen, (insertBetween_paths joined inserts away apart).mpr path⟩

end

/-- Bypassing a node and splicing one in leave what leads to what as it was among the
other nodes. Neither brings about a cycle or cuts a node off from the sink. -/
theorem splicing_keeps_paths (joined : patch.Joined) :
    (∀ gone removed rest, patch.bypass gone = .ok (removed, rest) → Bypassed patch gone rest) ∧
    ∀ before after node id rest, patch.insertBetween before after node = .ok (id, rest) →
      Spliced patch before after id rest :=
  ⟨fun _ _ _ => bypassed, fun _ _ _ _ _ => spliced joined⟩

def knot : Patch Constant where
  nodes := #[some ⟨1, 1⟩, some ⟨1, 1⟩, some ⟨1, 1⟩]
  edges := #[some ⟨⟨0⟩, 0, ⟨1⟩, 0, 1⟩, some ⟨⟨0⟩, 0, ⟨1⟩, 1, 1⟩, some ⟨⟨1⟩, 0, ⟨1⟩, 0, 1⟩, some ⟨⟨1⟩, 0, ⟨2⟩, 0, 1⟩,
    some ⟨⟨2⟩, 0, ⟨1⟩, 0, 1⟩]
  sink := some ⟨2⟩

/-- Without the node in the middle the last one feeds itself, and a node between the
first two is on no cycle. -/
theorem knot_keeps_paths : knot.Joined ∧
    (∃ removed rest, knot.bypass ⟨1⟩ = .ok (removed, rest) ∧ rest.FeedsSink ⟨0⟩ ∧ TransGen rest.Feeds ⟨2⟩ ⟨2⟩) ∧
    ∃ rest, knot.insertBetween ⟨0⟩ ⟨1⟩ ⟨1, 1⟩ = .ok (⟨3⟩, rest) ∧ rest.FeedsSink ⟨0⟩ ∧
      TransGen rest.Feeds ⟨0⟩ ⟨3⟩ ∧ TransGen rest.Feeds ⟨3⟩ ⟨2⟩ ∧ ¬ TransGen rest.Feeds ⟨2⟩ ⟨3⟩ := by
  have joined : knot.Joined := by decide +kernel
  obtain ⟨⟨removed, rest⟩, bypasses⟩ : ∃ result, knot.bypass ⟨1⟩ = .ok result := by decide +kernel
  obtain ⟨⟨id, longer⟩, inserts, rfl⟩ : ∃ result, knot.insertBetween ⟨0⟩ ⟨1⟩ ⟨1, 1⟩ = .ok result ∧ result.1 = ⟨3⟩ := by
    decide +kernel
  obtain ⟨bypassing, splicing⟩ := splicing_keeps_paths joined
  have without := bypassing _ _ _ bypasses
  have spliced := splicing _ _ _ _ _ inserts
  have first : knot.Feeds ⟨0⟩ ⟨1⟩ := ⟨⟨0⟩, _, rfl, rfl, rfl⟩
  have second : knot.Feeds ⟨1⟩ ⟨2⟩ := ⟨⟨3⟩, _, rfl, rfl, rfl⟩
  have back : knot.Feeds ⟨2⟩ ⟨1⟩ := ⟨⟨4⟩, _, rfl, rfl, rfl⟩
  have fed : knot.FeedsSink ⟨0⟩ := ⟨⟨2⟩, rfl, .tail (.single first) second⟩
  refine ⟨joined, ⟨removed, rest, bypasses, ?_, ?_⟩, longer, inserts, ?_, ?_, ?_, ?_⟩
  · exact without.fed (by decide) ⟨0⟩ (by decide) fed
  · exact (without.paths ⟨2⟩ ⟨2⟩ (by decide) (by decide)).mpr (.tail (.single back) second)
  · exact spliced.fed ⟨0⟩ fed
  · exact (spliced.reached ⟨0⟩ (by decide)).mpr .refl
  · exact (spliced.reaches ⟨2⟩ (by decide)).mpr (.single second)
  · rw [spliced.reached ⟨2⟩ (by decide)]
    intro leads
    -- Nothing feeds the node in front of the new one.
    obtain same | ⟨last, _, id, edge, found, _, onto⟩ := leads.cases_tail
    · cases same
    · have unfed : ∀ entry ∈ knot.liveEdges, entry.2.dest ≠ ⟨0⟩ := by decide +kernel
      exact unfed (id, edge) (mem_liveEdges.mpr found) onto

end Patch

end Patchbay
