import Patchbay.Proofs.Patch.Operations
import Patchbay.Proofs.Plan.Acceptance

/-! What one edit of a patch may do, and what it leaves there.

Edits that name something that is not there are refused; what is connected or made the
sink is taken as it is. A patch stays sound under edits that connect and choose what is
there, and each place keeps what it holds unless the edit is meant for it.
-/

set_option autoImplicit false

namespace Patchbay

namespace Patch

variable {ν : Type}

inductive Edit (ν : Type) where
  | add (node : ν)
  | remove (id : NodeId)
  | replace (id : NodeId) (node : ν)
  | insertBetween (before after : NodeId) (node : ν)
  | bypass (id : NodeId)
  | connect (edge : Edge)
  | disconnect (id : EdgeId)
  | setGain (id : EdgeId) (gain : Sample)
  | setSink (id : NodeId)

/-- What an edit answers: the id that it hands out, what it takes out, or whether
there was anything to change. -/
inductive Reply (ν : Type) where
  | node (id : NodeId)
  | edge (id : EdgeId)
  | taken (node : ν)
  | cut (edge? : Option Edge)
  | found (there : Bool)
  | done

def Edit.steps : Edit ν → Editing ν (Reply ν)
  | .add node => .node <$> modifyGet (·.add node)
  | .remove id => .taken <$> Editing.remove id
  | .replace id node => .taken <$> Editing.replace id node
  | .insertBetween before after node => .node <$> Editing.insertBetween before after node
  | .bypass id => .taken <$> Editing.bypass id
  | .connect edge => .edge <$> modifyGet (·.connect edge)
  | .disconnect id => .cut <$> modifyGet (·.disconnect id)
  | .setGain id gain => .found <$> modifyGet (·.setGain id gain)
  | .setSink id => modifyGet fun patch => (.done, patch.setSink id)

/-- What an edit answers, and the patch as it stands afterwards, refused or not. -/
def perform (patch : Patch ν) (edit : Edit ν) : Except EditError (Reply ν) × Patch ν := edit.steps.run.run patch

def next (patch : Patch ν) (edit : Edit ν) : Patch ν := (patch.perform edit).2

def Edit.nodeAfter (edit : Edit ν) (id : NodeId) (node : ν) : Option ν :=
  match edit with
  | .remove gone | .bypass gone => if id = gone then none else some node
  | .replace there other => if id = there then some other else some node
  | _ => some node

/-- What an edit makes of the edge behind an id: it goes by itself, with a node that it
touches, or where a node is spliced into it. -/
def edgeAfter (patch : Patch ν) (edit : Edit ν) (id : EdgeId) (edge : Edge) : Option Edge :=
  match edit with
  | .remove gone | .bypass gone => if edge.source = gone ∨ edge.dest = gone then none else some edge
  | .insertBetween before after _ =>
      if (patch.between? before after).any (·.1 = id) then none else some edge
  | .disconnect gone => if id = gone then none else some edge
  | .setGain there gain => some (if id = there then { edge with gain } else edge)
  | _ => some edge

/-- The nodes that an edit refers to unchecked are there. -/
def Admits (patch : Patch ν) : Edit ν → Prop
  | .connect edge => patch.Live edge.source ∧ patch.Live edge.dest
  | .setSink id => patch.Live id
  | _ => True

structure Sound (patch : Patch ν) : Prop where
  ends : ∀ {id edge}, patch.edge? id = some edge → patch.Live edge.source ∧ patch.Live edge.dest
  sink : ∀ {id}, patch.sink = some id → patch.Live id

/-- What an error says is missing is missing. -/
def Lacks (patch : Patch ν) : EditError → Prop
  | .nodeNotFound id => ¬ patch.Live id
  | .edgeNotFound source dest => patch.Live source ∧ patch.Live dest ∧ ¬ patch.Feeds source dest

def Misses (patch : Patch ν) : Edit ν → Prop
  | .remove id | .replace id _ | .bypass id => ¬ patch.Live id
  | .insertBetween before after _ =>
      ¬ patch.Live before ∨ ¬ patch.Live after ∨ patch.between? before after = none
  | _ => False

inductive Makes (patch : Patch ν) : Edit ν → Patch ν → Prop where
  | add (node : ν) : Makes patch (.add node) (patch.add node).2
  | connect (edge : Edge) : Makes patch (.connect edge) (patch.connect edge).2
  | disconnect (id : EdgeId) : Makes patch (.disconnect id) (patch.disconnect id).2
  | setGain (id : EdgeId) (gain : Sample) : Makes patch (.setGain id gain) (patch.setGain id gain).2
  | setSink (id : NodeId) : Makes patch (.setSink id) (patch.setSink id)
  | remove {id : NodeId} {node : ν} {rest : Patch ν} :
      patch.remove id = .ok (node, rest) → Makes patch (.remove id) rest
  | replace {id : NodeId} {node old : ν} {rest : Patch ν} :
      patch.replace id node = .ok (old, rest) → Makes patch (.replace id node) rest
  | insertBetween {before after id : NodeId} {node : ν} {rest : Patch ν} :
      patch.insertBetween before after node = .ok (id, rest) → Makes patch (.insertBetween before after node) rest
  | bypass {id : NodeId} {node : ν} {rest : Patch ν} :
      patch.bypass id = .ok (node, rest) → Makes patch (.bypass id) rest
  | refused {edit : Edit ν} : patch.Misses edit → Makes patch edit patch

variable {patch rest : Patch ν} {edit : Edit ν}

theorem next_add (node : ν) : patch.next (.add node) = (patch.add node).2 := rfl

theorem next_connect (edge : Edge) : patch.next (.connect edge) = (patch.connect edge).2 := rfl

theorem live_iff {id : NodeId} : patch.Live id ↔ patch.node? id ≠ none := by
  simp [Live, Option.ne_none_iff_exists']

theorem remove_error {id : NodeId} {error : EditError} (refused : patch.remove id = .error error) :
    error = .nodeNotFound id ∧ ¬ patch.Live id := by
  rw [remove_eq] at refused
  split at refused
  · rename_i absent
    cases refused
    simp [live_iff, absent]
  · cases refused

theorem replace_error {id : NodeId} {node : ν} {error : EditError} (refused : patch.replace id node = .error error) :
    error = .nodeNotFound id ∧ ¬ patch.Live id := by
  rw [replace_eq] at refused
  split at refused
  · rename_i absent
    cases refused
    simp [live_iff, absent]
  · cases refused

theorem bypass_error {id : NodeId} {error : EditError} (refused : patch.bypass id = .error error) :
    error = .nodeNotFound id ∧ ¬ patch.Live id := by
  rw [bypass_eq] at refused
  cases removes : patch.remove id with
  | error other =>
    rw [removes] at refused
    cases refused
    exact remove_error removes
  | ok removed =>
    rw [removes] at refused
    cases refused

theorem insertBetween_error {before after : NodeId} {node : ν} {error : EditError}
    (refused : patch.insertBetween before after node = .error error) :
    patch.Lacks error ∧ patch.Misses (.insertBetween before after node) := by
  rw [insertBetween_eq] at refused
  split at refused
  · rename_i absent
    cases refused
    simp_all [Lacks, Misses, live_iff]
  split at refused
  · rename_i absent
    cases refused
    simp_all [Lacks, Misses, live_iff]
  split at refused
  · rename_i absent
    cases refused
    have none : patch.between? before after = none := absent
    simp_all [Lacks, Misses, live_iff, between?_eq_none]
  · cases refused

/-- A refused edit changes nothing, and the error is true of the patch. -/
theorem perform_error {error : EditError} (refused : (patch.perform edit).1 = .error error) :
    patch.next edit = patch ∧ patch.Lacks error ∧ patch.Misses edit := by
  unfold next
  cases edit with
  | add | connect | disconnect | setGain | setSink => cases refused
  | remove id =>
    obtain ⟨refused, same⟩ := (Editing.remove_clean id).refused refused
    obtain ⟨rfl, absent⟩ := remove_error refused
    exact ⟨same, absent, absent⟩
  | replace id node =>
    obtain ⟨refused, same⟩ := (Editing.replace_clean id node).refused refused
    obtain ⟨rfl, absent⟩ := replace_error refused
    exact ⟨same, absent, absent⟩
  | bypass id =>
    obtain ⟨refused, same⟩ := (Editing.bypass_clean id).refused refused
    obtain ⟨rfl, absent⟩ := bypass_error refused
    exact ⟨same, absent, absent⟩
  | insertBetween before after node =>
    obtain ⟨refused, same⟩ := (Editing.insertBetween_clean before after node).refused refused
    exact ⟨same, insertBetween_error refused⟩

/-- An edit does what it is for or is refused. -/
theorem makes (patch : Patch ν) (edit : Edit ν) : patch.Makes edit (patch.next edit) := by
  cases reply : (patch.perform edit).1 with
  | error error =>
    obtain ⟨same, _, misses⟩ := perform_error reply
    rw [same]
    exact .refused misses
  | ok =>
    cases edit with
    | add node => exact .add node
    | connect edge => exact .connect edge
    | disconnect id => exact .disconnect id
    | setGain id gain => exact .setGain id gain
    | setSink id => exact .setSink id
    | remove id => exact (Editing.answered reply).elim fun _ made => .remove made.2
    | replace id node => exact (Editing.answered reply).elim fun _ made => .replace made.2
    | bypass id => exact (Editing.answered reply).elim fun _ made => .bypass made.2
    | insertBetween before after node => exact (Editing.answered reply).elim fun _ made => .insertBetween made.2

/-! ## What is referred to is there -/

theorem Live.update {id : NodeId} (live : patch.Live id) {there : NodeId} {node : ν}
    (nodes : rest.node? = Function.update patch.node? there (some node)) : rest.Live id := by
  rw [live_iff] at live ⊢
  rw [nodes, Function.update_apply]
  split
  · exact Option.some_ne_none node
  · exact live

namespace Sound

variable (sound : patch.Sound)
include sound

theorem extend (nodes : ∀ id, patch.Live id → rest.Live id)
    (edges : ∀ id edge, rest.edge? id = some edge →
      (∃ old, patch.edge? id = some old ∧ old.source = edge.source ∧ old.dest = edge.dest) ∨
        rest.Live edge.source ∧ rest.Live edge.dest)
    (sinks : ∀ id, rest.sink = some id → patch.sink = some id ∨ rest.Live id) : rest.Sound where
  ends := by
    intro id edge found
    rcases edges id edge found with ⟨old, there, source, dest⟩ | live
    · obtain ⟨first, second⟩ := sound.ends there
      exact ⟨nodes _ (source ▸ first), nodes _ (dest ▸ second)⟩
    · exact live
  sink := by
    intro id chosen
    rcases sinks id chosen with old | live
    · exact nodes id (sound.sink old)
    · exact live

theorem add (node : ν) : (patch.add node).2.Sound := by
  apply sound.extend
  · exact fun id live => live.update (add_node? node)
  · exact fun id edge found => .inl ⟨edge, found, rfl, rfl⟩
  · exact fun id chosen => .inl chosen

theorem connect {edge : Edge} (source : patch.Live edge.source) (dest : patch.Live edge.dest) :
    (patch.connect edge).2.Sound := by
  apply sound.extend
  · exact fun id live => live
  · intro id edge' found
    rw [connect_edge?, Function.update_apply] at found
    split at found
    · cases found
      exact .inr ⟨source, dest⟩
    · exact .inl ⟨edge', found, rfl, rfl⟩
  · exact fun id chosen => .inl chosen

theorem foldl_connect {edges : List Edge}
    (live : ∀ edge ∈ edges, patch.Live edge.source ∧ patch.Live edge.dest) :
    (edges.foldl (fun patch edge => (patch.connect edge).2) patch).Sound := by
  induction edges generalizing patch with
  | nil => exact sound
  | cons edge later ih =>
    obtain ⟨source, dest⟩ := live edge List.mem_cons_self
    exact ih (sound.connect source dest) fun other member => live other (List.mem_cons_of_mem _ member)

theorem disconnect (gone : EdgeId) : (patch.disconnect gone).2.Sound := by
  obtain ⟨nodes, sink, _⟩ := patch.disconnect_rest gone
  apply sound.extend
  · simp [Live, node?, nodes]
  · intro id edge found
    rw [disconnect_edge?, Function.update_apply] at found
    split at found
    · cases found
    · exact .inl ⟨edge, found, rfl, rfl⟩
  · simp +contextual [sink]

theorem setGain (there : EdgeId) (gain : Sample) : (patch.setGain there gain).2.Sound := by
  obtain ⟨nodes, sink, _⟩ := patch.setGain_rest there gain
  apply sound.extend
  · simp [Live, node?, nodes]
  · intro id edge found
    rw [setGain_edge?, Function.update_apply] at found
    split at found
    · obtain ⟨old, present, rfl⟩ := Option.map_eq_some_iff.mp found
      subst id
      exact .inl ⟨old, present, rfl, rfl⟩
    · exact .inl ⟨edge, found, rfl, rfl⟩
  · simp +contextual [sink]

theorem setSink {id : NodeId} (live : patch.Live id) : (patch.setSink id).Sound := by
  apply sound.extend
  · exact fun id live => live
  · exact fun id edge found => .inl ⟨edge, found, rfl, rfl⟩
  · intro other chosen
    cases chosen
    exact .inr live

theorem replace {id : NodeId} {node old : ν} (replaces : patch.replace id node = .ok (old, rest)) : rest.Sound := by
  obtain ⟨_, nodes, edges, sink, _⟩ := replace_spec replaces
  apply sound.extend
  · exact fun id live => live.update nodes
  · intro id edge found
    rw [edge?, edges] at found
    exact .inl ⟨edge, found, rfl, rfl⟩
  · simp +contextual [sink]

theorem remove {gone : NodeId} {removed : ν} (removes : patch.remove gone = .ok (removed, rest)) : rest.Sound where
  ends := by
    intro id edge found
    obtain ⟨there, source, dest⟩ := (remove_edge? removes).mp found
    simp only [Live, remove_node? removes source, remove_node? removes dest]
    exact sound.ends there
  sink := by
    intro id chosen
    obtain ⟨there, other⟩ := (remove_sink removes).mp chosen
    simp only [Live, remove_node? removes other]
    exact sound.sink there

theorem insertBetween {before after id : NodeId} {node : ν}
    (inserts : patch.insertBetween before after node = .ok (id, rest)) : rest.Sound := by
  obtain ⟨spliced, edge, found, rfl, rfl⟩ := insertBetween_spec inserts
  obtain ⟨present, rfl, rfl⟩ := between?_spec found
  obtain ⟨source, dest⟩ := sound.ends present
  have stays : ∀ id, patch.Live id → ((patch.disconnect spliced).2.add node).2.Live id := by
    intro id live
    apply Live.update _ (add_node? node)
    simpa [Live, node?, (patch.disconnect_rest spliced).1] using live
  have added : ((patch.disconnect spliced).2.add node).2.Live ((patch.disconnect spliced).2.add node).1 :=
    ⟨node, by simp⟩
  -- Each of the two new edges joins the new node and an end of the old edge.
  apply ((sound.disconnect spliced).add node |>.connect _ _).connect
  · exact added
  · exact stays _ dest
  · exact stays _ source
  · exact added

theorem bypass {gone : NodeId} {removed : ν} (bypasses : patch.bypass gone = .ok (removed, rest)) : rest.Sound := by
  obtain ⟨without, removes, rfl⟩ := bypass_spec bypasses
  apply (sound.remove removes).foldl_connect
  intro edge joins
  simp only [bridges, List.mem_flatMap, List.mem_map, List.mem_filter, Prod.exists, mem_liveEdges,
    decide_eq_true_eq] at joins
  obtain ⟨first, ⟨⟨_, _, into, rfl⟩, _, source⟩, second, ⟨⟨_, _, out, rfl⟩, _, dest⟩, rfl⟩ := joins
  simp only [Live, remove_node? removes source, remove_node? removes dest]
  exact ⟨(sound.ends into).1, (sound.ends out).2⟩

theorem makes (made : patch.Makes edit rest) (admits : patch.Admits edit) : rest.Sound := by
  cases made with
  | add node => exact sound.add node
  | connect edge => exact sound.connect admits.1 admits.2
  | disconnect gone => exact sound.disconnect gone
  | setGain there gain => exact sound.setGain there gain
  | setSink id => exact sound.setSink admits
  | remove made => exact sound.remove made
  | replace made => exact sound.replace made
  | insertBetween made => exact sound.insertBetween made
  | bypass made => exact sound.bypass made
  | refused => exact sound

/-- A compile never finds an edge that leads from or to a node that is not there. -/
theorem not_dangling [Node ν] {options : CompileOptions} {id : EdgeId} {node : NodeId} :
    compile patch options ≠ .ok (.error (.danglingNode id node)) := by
  intro answer
  obtain ⟨edge, found, touches, absent⟩ := compile_defect answer
  obtain ⟨source, dest⟩ := sound.ends found
  rcases touches with rfl | rfl
  · exact live_iff.mp source absent
  · exact live_iff.mp dest absent

end Sound

/-! ## Ids that are handed out -/

theorem perform_node {id : NodeId} (answer : (patch.perform edit).1 = .ok (.node id)) :
    id.index = patch.nodes.size ∧ ∃ node,
      (edit = .add node ∨ ∃ before after, edit = .insertBetween before after node) ∧
        (patch.next edit).node? id = some node := by
  cases edit with
  | add node =>
    cases answer
    refine ⟨rfl, node, .inl rfl, ?_⟩
    rw [next_add, add_node?]
    exact Function.update_self ..
  | insertBetween before after node =>
    obtain ⟨other, same, made⟩ := Editing.answered answer
    cases same
    refine ⟨?_, node, .inr ⟨before, after, rfl⟩, ?_⟩
    · obtain ⟨spliced, edge, _, rfl, _⟩ := insertBetween_spec made
      simp [Patch.add, patch.disconnect_rest spliced]
    · obtain ⟨spliced, edge, _, rfl, result⟩ := insertBetween_spec made
      rw [next, perform, Edit.steps, result]
      simp
  | connect | disconnect | setGain | setSink => cases answer
  | remove | replace | bypass =>
    obtain ⟨_, same, _⟩ := Editing.answered answer
    cases same

theorem perform_edge {id : EdgeId} (answer : (patch.perform edit).1 = .ok (.edge id)) :
    id.index = patch.edges.size ∧ ∃ edge, edit = .connect edge ∧ (patch.next edit).edge? id = some edge := by
  cases edit with
  | connect edge =>
    cases answer
    refine ⟨rfl, edge, rfl, ?_⟩
    rw [next_connect, connect_edge?]
    exact Function.update_self ..
  | add | disconnect | setGain | setSink => cases answer
  | remove | replace | bypass | insertBetween =>
    obtain ⟨_, same, _⟩ := Editing.answered answer
    cases same

/-! ## What becomes of the places that are there -/

theorem insertBetween_size {before after id : NodeId} {node : ν}
    (inserts : patch.insertBetween before after node = .ok (id, rest)) :
    rest.nodes.size = patch.nodes.size + 1 ∧ rest.edges.size = patch.edges.size + 2 := by
  obtain ⟨spliced, edge, _, _, rfl⟩ := insertBetween_spec inserts
  obtain ⟨nodes, _, edges⟩ := patch.disconnect_rest spliced
  simp [add, connect, nodes, edges]

theorem remove_size {gone : NodeId} {removed : ν} (removes : patch.remove gone = .ok (removed, rest)) :
    rest.nodes.size = patch.nodes.size ∧ rest.edges.size = patch.edges.size := by
  obtain ⟨_, rfl⟩ := remove_spec removes
  simp

theorem Makes.size (made : patch.Makes edit rest) :
    patch.nodes.size ≤ rest.nodes.size ∧ patch.edges.size ≤ rest.edges.size := by
  cases made with
  | add node => simp [Patch.add]
  | connect edge => simp [Patch.connect]
  | disconnect gone => simp [patch.disconnect_rest gone]
  | setGain there gain => simp [patch.setGain_rest there gain]
  | setSink id => simp [Patch.setSink]
  | remove made => simp [remove_size made]
  | replace made => simp [replace_spec made]
  | insertBetween made => simp [insertBetween_size made]
  | bypass made =>
    obtain ⟨without, removes, rfl⟩ := bypass_spec made
    simp [foldl_connect, remove_size removes]
  | refused => simp

section

variable {gone : NodeId} {removed : ν} (removes : patch.remove gone = .ok (removed, rest))
include removes

theorem remove_nodeAfter (id : NodeId) :
    rest.node? id = (patch.node? id).bind ((Edit.remove gone).nodeAfter id) := by
  by_cases same : id = gone
  · subst same
    cases patch.node? id <;> simp [remove_node?_self removes, Edit.nodeAfter]
  · rw [remove_node? removes same]
    cases patch.node? id <;> simp [Edit.nodeAfter, same]

theorem remove_edgeAfter (id : EdgeId) :
    rest.edge? id = (patch.edge? id).bind (patch.edgeAfter (.remove gone) id) := by
  ext edge
  rw [remove_edge? removes]
  cases patch.edge? id with
  | none => simp
  | some old =>
    simp only [edgeAfter, Option.bind_some, Option.some.injEq, Option.ite_none_left_eq_some, not_or]
    constructor
    · rintro ⟨rfl, apart⟩
      exact ⟨apart, rfl⟩
    · rintro ⟨apart, rfl⟩
      exact ⟨rfl, apart⟩

end

theorem Misses.nodeAfter (misses : patch.Misses edit) {id : NodeId} {node : ν} (present : patch.node? id = some node) :
    edit.nodeAfter id node = some node := by
  have live : patch.Live id := ⟨node, present⟩
  cases edit with
  | add | connect | disconnect | setGain | setSink | insertBetween => rfl
  | remove gone | replace gone | bypass gone =>
    have other : id ≠ gone := by
      rintro rfl
      exact misses live
    simp [Edit.nodeAfter, other]

/-- Where every edge joins live nodes, an edit that is refused would take none out. -/
theorem Misses.edgeAfter (misses : patch.Misses edit) (sound : patch.Sound) {id : EdgeId} {edge : Edge}
    (present : patch.edge? id = some edge) : patch.edgeAfter edit id edge = some edge := by
  obtain ⟨source, dest⟩ := sound.ends present
  cases edit with
  | add | connect | setSink | replace => rfl
  | disconnect | setGain => exact misses.elim
  | remove gone | bypass gone =>
    have other : ¬ (edge.source = gone ∨ edge.dest = gone) := by
      rintro (rfl | rfl)
      · exact misses source
      · exact misses dest
    simp [Patch.edgeAfter, other]
  | insertBetween before after node =>
    cases found : patch.between? before after with
    | none => simp [Patch.edgeAfter, found]
    | some entry =>
      -- An edge to splice into would have its ends, so nothing would be missing.
      obtain ⟨there, rfl, rfl⟩ := between?_spec found
      obtain ⟨first, second⟩ := sound.ends there
      rcases misses with gone | gone | none
      · exact absurd first gone
      · exact absurd second gone
      · exact absurd (found.symm.trans none) (Option.some_ne_none entry)

theorem Makes.node? (made : patch.Makes edit rest) {id : NodeId} (there : id.index < patch.nodes.size) :
    rest.node? id = (patch.node? id).bind (edit.nodeAfter id) := by
  have kept : patch.node? id = (patch.node? id).bind some := (Option.bind_fun_some _).symm
  -- What an edit adds has a place behind all that were there, so an old place sees only what it takes out.
  cases made with
  | add node =>
    rw [add_node?, Function.update_of_ne]
    · exact kept
    · rintro rfl
      exact Nat.lt_irrefl _ there
  | connect edge => exact kept
  | disconnect gone =>
    rw [Patch.node?, (patch.disconnect_rest gone).1]
    exact kept
  | setGain there gain =>
    rw [Patch.node?, (patch.setGain_rest there gain).1]
    exact kept
  | setSink other => exact kept
  | remove made => exact remove_nodeAfter made id
  | replace made =>
    rename_i other node old
    obtain ⟨present, nodes, _⟩ := replace_spec made
    rw [nodes, Function.update_apply]
    by_cases same : id = other
    · subst same
      simp [present, Edit.nodeAfter]
    · cases patch.node? id <;> simp [Edit.nodeAfter, same]
  | insertBetween made =>
    obtain ⟨spliced, edge, _, rfl, rfl⟩ := insertBetween_spec made
    obtain ⟨nodes, _⟩ := patch.disconnect_rest spliced
    rw [connect_node?, connect_node?, add_node?, Function.update_of_ne, Patch.node?, nodes]
    · exact kept
    · rintro rfl
      simp [Patch.add, nodes] at there
  | bypass made =>
    obtain ⟨without, removes, rfl⟩ := bypass_spec made
    rw [foldl_connect]
    exact remove_nodeAfter removes id
  | refused misses =>
    cases present : patch.node? id with
    | none => rfl
    | some node => exact (misses.nodeAfter present).symm

theorem Makes.edge? (made : patch.Makes edit rest) (sound : patch.Sound) {id : EdgeId}
    (there : id.index < patch.edges.size) : rest.edge? id = (patch.edge? id).bind (patch.edgeAfter edit id) := by
  have kept : patch.edge? id = (patch.edge? id).bind some := (Option.bind_fun_some _).symm
  cases made with
  | add node => exact kept
  | connect edge =>
    rw [connect_edge?, Function.update_of_ne]
    · exact kept
    · rintro rfl
      exact Nat.lt_irrefl _ there
  | disconnect gone =>
    rw [disconnect_edge?, Function.update_apply]
    cases patch.edge? id <;> simp [Patch.edgeAfter]
  | setGain other gain =>
    rw [setGain_edge?, Function.update_apply]
    by_cases same : id = other
    · subst same
      cases patch.edge? id <;> simp [Patch.edgeAfter]
    · cases patch.edge? id <;> simp [Patch.edgeAfter, same]
  | setSink other => exact kept
  | remove made => exact remove_edgeAfter made id
  | replace made =>
    rw [Patch.edge?, (replace_spec made).2.2.1]
    exact kept
  | insertBetween made =>
    obtain ⟨spliced, edge, found, rfl, rfl⟩ := insertBetween_spec made
    obtain ⟨nodes, _, size⟩ := patch.disconnect_rest spliced
    -- Both new edges come after the places that are there.
    have old : ∀ edges ≥ patch.edges.size, id ≠ ⟨edges⟩ := by
      rintro edges large rfl
      exact absurd there (Nat.not_lt.mpr large)
    rw [connect_edge?, Function.update_of_ne, connect_edge?, Function.update_of_ne, add_edge?, disconnect_edge?,
      Function.update_apply]
    · cases patch.edge? id <;> simp [Patch.edgeAfter, found, eq_comm]
    · exact old _ (by simp [Patch.add, size])
    · exact old _ (by simp [Patch.add, Patch.connect, size])
  | bypass made =>
    obtain ⟨without, removes, rfl⟩ := bypass_spec made
    -- The bridges come after the places that are there.
    have inside : id.index < without.edges.size := by rwa [(remove_size removes).2]
    rw [foldl_connect, Patch.edge?, Array.getElem?_append_left inside]
    exact remove_edgeAfter removes id
  | refused misses =>
    cases present : patch.edge? id with
    | none => rfl
    | some edge => exact (misses.edgeAfter sound present).symm

end Patch

end Patchbay
