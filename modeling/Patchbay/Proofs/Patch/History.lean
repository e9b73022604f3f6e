import Patchbay.Proofs.Patch.Edits

/-! Patches under a history of edits.

A history begins with the empty patch. What is connected and what is made the sink is
there at that time; beyond that any edit may come. Each id denotes nothing until it is
handed out, then one node or edge, and nothing ever again once that is gone.
-/

set_option autoImplicit false

namespace Patchbay

namespace Patch

variable {ν : Type}

def after (patch : Patch ν) (edits : List (Edit ν)) : Patch ν := edits.foldl next patch

def AdmitsAll (patch : Patch ν) : List (Edit ν) → Prop
  | [] => True
  | edit :: later => patch.Admits edit ∧ (patch.next edit).AdmitsAll later

variable {patch : Patch ν} {edit : Edit ν} {past span : List (Edit ν)}

@[simp] theorem after_nil (patch : Patch ν) : patch.after [] = patch := rfl

@[simp] theorem after_cons (patch : Patch ν) (edit : Edit ν) (later : List (Edit ν)) :
    patch.after (edit :: later) = (patch.next edit).after later := rfl

theorem after_append (patch : Patch ν) (past span : List (Edit ν)) :
    patch.after (past ++ span) = (patch.after past).after span := List.foldl_append

theorem admitsAll_append : patch.AdmitsAll (past ++ span) ↔ patch.AdmitsAll past ∧ (patch.after past).AdmitsAll span := by
  induction past generalizing patch with
  | nil => simp [AdmitsAll]
  | cons edit later ih => simp [AdmitsAll, ih, and_assoc]

theorem Sound.after (sound : patch.Sound) (admits : patch.AdmitsAll span) : (patch.after span).Sound := by
  induction span generalizing patch with
  | nil => exact sound
  | cons edit later ih => exact ih (sound.makes (patch.makes edit) admits.1) admits.2

theorem after_size (patch : Patch ν) (span : List (Edit ν)) :
    patch.nodes.size ≤ (patch.after span).nodes.size ∧ patch.edges.size ≤ (patch.after span).edges.size := by
  induction span generalizing patch with
  | nil => simp
  | cons edit later ih =>
    obtain ⟨nodes, edges⟩ := (patch.makes edit).size
    exact ⟨nodes.trans (ih _).1, edges.trans (ih _).2⟩

theorem after_node?_none {id : NodeId} (there : id.index < patch.nodes.size) (absent : patch.node? id = none) :
    (patch.after span).node? id = none := by
  induction span generalizing patch with
  | nil => exact absent
  | cons edit later ih =>
    have made := patch.makes edit
    apply ih (there.trans_le made.size.1)
    rw [made.node? there, absent, Option.bind_none]

theorem after_edge?_none (sound : patch.Sound) (admits : patch.AdmitsAll span) {id : EdgeId}
    (there : id.index < patch.edges.size) (absent : patch.edge? id = none) : (patch.after span).edge? id = none := by
  induction span generalizing patch with
  | nil => exact absent
  | cons edit later ih =>
    have made := patch.makes edit
    apply ih (sound.makes made admits.1) admits.2 (there.trans_le made.size.2)
    rw [made.edge? sound there, absent, Option.bind_none]

theorem after_node? {id : NodeId} {node : ν} (present : patch.node? id = some node)
    (left : ∀ edit ∈ span, edit.nodeAfter id node = some node) : (patch.after span).node? id = some node := by
  induction span generalizing patch with
  | nil => exact present
  | cons edit later ih =>
    apply ih _ fun other member => left other (List.mem_cons_of_mem _ member)
    rw [(patch.makes edit).node? (lt_size_of_node? present), present, Option.bind_some]
    exact left edit List.mem_cons_self

def Spares (patch : Patch ν) (id : EdgeId) (edge : Edge) : List (Edit ν) → Prop
  | [] => True
  | edit :: later => patch.edgeAfter edit id edge ≠ none ∧ (patch.next edit).Spares id edge later

/-- Which edges an edit takes out has nothing to do with their gains. -/
theorem edgeAfter_gain {id : EdgeId} {edge : Edge} (spared : patch.edgeAfter edit id edge ≠ none) (gain : Sample) :
    ∃ gain', patch.edgeAfter edit id { edge with gain } = some { edge with gain := gain' } := by
  cases edit <;> simp_all [edgeAfter]
  split <;> exact ⟨_, rfl⟩

theorem after_edge? (sound : patch.Sound) (admits : patch.AdmitsAll span) {id : EdgeId} {edge : Edge} {gain : Sample}
    (present : patch.edge? id = some { edge with gain }) (spared : patch.Spares id edge span) :
    ∃ gain', (patch.after span).edge? id = some { edge with gain := gain' } := by
  induction span generalizing patch gain with
  | nil => exact ⟨gain, present⟩
  | cons edit later ih =>
    have made := patch.makes edit
    obtain ⟨gain', kept⟩ := edgeAfter_gain spared.1 gain
    -- The gain may have changed, which spares the edge as before.
    apply ih (sound.makes made admits.1) admits.2 _ spared.2
    · exact gain'
    · rw [made.edge? sound (lt_size_of_edge? present), present, Option.bind_some, kept]

/-! ## From the empty patch on -/

def built (edits : List (Edit ν)) : Patch ν := empty.after edits

structure Edited (past : List (Edit ν)) (edit : Edit ν) : Prop where
  /-- Each id goes on to denote its node, unless the edit removes or replaces that. -/
  node : ∀ {id node}, (built past).node? id = some node → (built (past ++ [edit])).node? id = edit.nodeAfter id node
  /-- Each id goes on to denote its edge, unless the edit takes that out. -/
  edge : ∀ {id edge}, (built past).edge? id = some edge →
    (built (past ++ [edit])).edge? id = (built past).edgeAfter edit id edge
  /-- An id that is handed out denotes what came in, and has denoted nothing before. -/
  nodeId : ∀ {id}, ((built past).perform edit).1 = .ok (.node id) →
    (∃ node, (edit = .add node ∨ ∃ before after, edit = .insertBetween before after node) ∧
      (built (past ++ [edit])).node? id = some node) ∧
    ∀ sooner, sooner <+: past → (built sooner).node? id = none
  edgeId : ∀ {id}, ((built past).perform edit).1 = .ok (.edge id) →
    (∃ edge, edit = .connect edge ∧ (built (past ++ [edit])).edge? id = some edge) ∧
    ∀ sooner, sooner <+: past → (built sooner).edge? id = none
  /-- An edit that is refused changes nothing, and is refused for a reason. -/
  refused : ∀ {error}, ((built past).perform edit).1 = .error error →
    built (past ++ [edit]) = built past ∧ (built past).Lacks error

/-- What lasts while the edits of `span` follow those of `past`. -/
structure Lasts (past span : List (Edit ν)) : Prop where
  node : ∀ {id node}, (built past).node? id = some node → (∀ edit ∈ span, edit.nodeAfter id node = some node) →
    (built (past ++ span)).node? id = some node
  /-- Only the gain of an edge changes as long as the edge is there. -/
  edge : ∀ {id edge}, (built past).edge? id = some edge → (built past).Spares id edge span →
    ∃ gain, (built (past ++ span)).edge? id = some { edge with gain }
  /-- An id whose node is gone never denotes anything again. -/
  noNode : ∀ {id}, (∃ sooner, sooner <+: past ∧ (built sooner).node? id ≠ none) → (built past).node? id = none →
    (built (past ++ span)).node? id = none
  noEdge : ∀ {id}, (∃ sooner, sooner <+: past ∧ (built sooner).edge? id ≠ none) → (built past).edge? id = none →
    (built (past ++ span)).edge? id = none

theorem built_append (past span : List (Edit ν)) : built (past ++ span) = (built past).after span :=
  after_append empty past span

theorem built_concat (past : List (Edit ν)) (edit : Edit ν) : built (past ++ [edit]) = (built past).next edit :=
  built_append past [edit]

theorem empty_sound : (empty : Patch ν).Sound where
  ends := by simp [empty, edge?]
  sink := by simp [empty]

theorem built_sound (admits : (empty : Patch ν).AdmitsAll span) : (built span).Sound := empty_sound.after admits

section

variable {sooner : List (Edit ν)} (before : sooner <+: past)
include before

theorem lt_size_of_denoted {id : NodeId} (denotes : (built sooner).node? id ≠ none) :
    id.index < (built past).nodes.size := by
  obtain ⟨node, present⟩ := Option.ne_none_iff_exists'.mp denotes
  obtain ⟨span, rfl⟩ := before
  rw [built_append]
  exact (lt_size_of_node? present).trans_le (after_size _ span).1

theorem lt_size_of_joined {id : EdgeId} (denotes : (built sooner).edge? id ≠ none) :
    id.index < (built past).edges.size := by
  obtain ⟨edge, present⟩ := Option.ne_none_iff_exists'.mp denotes
  obtain ⟨span, rfl⟩ := before
  rw [built_append]
  exact (lt_size_of_edge? present).trans_le (after_size _ span).2

end

theorem lasts (admits : (empty : Patch ν).AdmitsAll (past ++ span)) : Lasts past span := by
  obtain ⟨first, second⟩ := admitsAll_append.mp admits
  have sound := built_sound first
  refine ⟨?_, ?_, ?_, ?_⟩
  · intro id node present left
    rw [built_append]
    exact after_node? present left
  · intro id edge present spared
    rw [built_append]
    exact after_edge? sound second present spared
  · rintro id ⟨sooner, before, denotes⟩ absent
    rw [built_append]
    exact after_node?_none (lt_size_of_denoted before denotes) absent
  · rintro id ⟨sooner, before, denotes⟩ absent
    rw [built_append]
    exact after_edge?_none sound second (lt_size_of_joined before denotes) absent

theorem edited (admits : (empty : Patch ν).AdmitsAll (past ++ [edit])) : Edited past edit := by
  have sound := built_sound (admitsAll_append.mp admits).1
  have made := (built past).makes edit
  refine ⟨?_, ?_, ?_, ?_, ?_⟩
  · intro id node present
    rw [built_concat, made.node? (lt_size_of_node? present), present, Option.bind_some]
  · intro id edge present
    rw [built_concat, made.edge? sound (lt_size_of_edge? present), present, Option.bind_some]
  · intro id reply
    obtain ⟨place, node, brings, there⟩ := perform_node reply
    refine ⟨⟨node, brings, built_concat past edit ▸ there⟩, ?_⟩
    intro sooner before
    -- Whatever was denoted before has an older place than what is handed out now.
    by_contra denotes
    exact (lt_size_of_denoted before denotes).ne place
  · intro id reply
    obtain ⟨place, edge, rfl, there⟩ := perform_edge reply
    refine ⟨⟨edge, rfl, built_concat past _ ▸ there⟩, ?_⟩
    intro sooner before
    by_contra denotes
    exact (lt_size_of_joined before denotes).ne place
  · intro error refused
    obtain ⟨same, lacks, _⟩ := perform_error refused
    exact ⟨(built_concat past edit).trans same, lacks⟩

/-- Under any history of edits that connect live nodes and choose live sinks, a patch
refers to live nodes only, so that no compile finds a dangling edge; each id that is
handed out is new and denotes one node or edge until that is gone for good; and what is
refused changes nothing. -/
theorem history_sound [Node ν] (edits : List (Edit ν)) (admits : (empty : Patch ν).AdmitsAll edits) :
    (built edits).Sound ∧
    (∀ options id node, compile (built edits) options ≠ .ok (.error (.danglingNode id node))) ∧
    (∀ past edit, past ++ [edit] <+: edits → Edited past edit) ∧
    ∀ past span, past ++ span <+: edits → Lasts past span := by
  have admitted : ∀ sooner, sooner <+: edits → (empty : Patch ν).AdmitsAll sooner := by
    rintro sooner ⟨later, rfl⟩
    exact (admitsAll_append.mp admits).1
  have sound := built_sound admits
  refine ⟨sound, fun _ _ _ => sound.not_dangling, ?_, ?_⟩
  · exact fun past edit before => edited (admitted _ before)
  · exact fun past span before => lasts (admitted _ before)

/-- A gain is spliced between a constant and a gain, made the sink and bypassed again;
the second try is refused. Then the constant goes, with the edge that is left. -/
def resplice : List (Edit Builtin) := [
  .add (.constant ⟨1, 1⟩), .add (.gain ⟨1, 1⟩), .connect ⟨⟨0⟩, 0, ⟨1⟩, 0, 1⟩,
  .insertBetween ⟨0⟩ ⟨1⟩ (.gain ⟨1, 1⟩), .setSink ⟨2⟩, .bypass ⟨2⟩, .bypass ⟨2⟩, .setGain ⟨3⟩ 0, .remove ⟨0⟩]

theorem resplice_sound : (empty : Patch Builtin).AdmitsAll resplice ∧ (built resplice).Sound ∧
    (∀ options id node, compile (built resplice) options ≠ .ok (.error (.danglingNode id node))) ∧
    (∀ past edit, past ++ [edit] <+: resplice → Edited past edit) ∧
    ∀ past span, past ++ span <+: resplice → Lasts past span := by
  have admits : (empty : Patch Builtin).AdmitsAll resplice := by
    have source : (built (resplice.take 2)).Live ⟨0⟩ := ⟨_, rfl⟩
    have dest : (built (resplice.take 2)).Live ⟨1⟩ := ⟨_, rfl⟩
    have sink : (built (resplice.take 4)).Live ⟨2⟩ := ⟨_, rfl⟩
    exact ⟨trivial, trivial, ⟨source, dest⟩, trivial, sink, trivial, trivial, trivial, trivial, trivial⟩
  exact ⟨admits, history_sound resplice admits⟩

end Patch

end Patchbay
