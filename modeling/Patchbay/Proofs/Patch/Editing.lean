import Patchbay.Patch.Basic

/-! How far edits come.

An edit that is refused stops before its first change. So it leaves the patch as it was,
though nothing puts an earlier patch back.
-/

set_option autoImplicit false

namespace Patchbay

variable {ν α β : Type}

namespace Editing

theorem run_bind (edit : Editing ν α) (rest : α → Editing ν β) (patch : Patch ν) : (edit >>= rest).run.run patch =
    match edit.run.run patch with
    | (.ok answer, after) => (rest answer).run.run after
    | (.error error, after) => (.error error, after) := by
  rw [ExceptT.run_bind, StateT.run_bind]
  generalize edit.run.run patch = result
  rcases result with ⟨_ | _, _⟩ <;> rfl

theorem run_get (patch : Patch ν) : (get : Editing ν (Patch ν)).run.run patch = (.ok patch, patch) := rfl

theorem run_demand (patch : Patch ν) (id : NodeId) : (demand id).run.run patch =
    (match patch.node? id with | some node => .ok node | none => .error (.nodeNotFound id), patch) := by
  rw [demand, run_bind, run_get]
  dsimp only
  cases patch.node? id <;> rfl

theorem run_remove (patch : Patch ν) (id : NodeId) : (remove id).run.run patch =
    match patch.node? id with
    | none => (.error (.nodeNotFound id), patch)
    | some node => (.ok node, {
        nodes := patch.nodes.setIfInBounds id.index none
        edges := patch.edges.map fun edge => edge.filter fun edge => edge.source ≠ id && edge.dest ≠ id
        sink := patch.sink.filter (· ≠ id) }) := by
  rw [remove, run_bind, run_demand]
  cases patch.node? id <;> rfl

theorem run_replace (patch : Patch ν) (id : NodeId) (node : ν) : (replace id node).run.run patch =
    match patch.node? id with
    | none => (.error (.nodeNotFound id), patch)
    | some old => (.ok old, { patch with nodes := patch.nodes.setIfInBounds id.index (some node) }) := by
  rw [replace, run_bind, run_demand]
  cases patch.node? id <;> rfl

theorem run_insertBetween (patch : Patch ν) (before after : NodeId) (node : ν) :
    (insertBetween before after node).run.run patch =
    if (patch.node? before).isNone then (.error (.nodeNotFound before), patch)
    else if (patch.node? after).isNone then (.error (.nodeNotFound after), patch)
    else match patch.between? before after with
      | none => (.error (.edgeNotFound before after), patch)
      | some (spliced, edge) =>
          let (id, rest) := (patch.disconnect spliced).2.add node
          (.ok id, ((rest.connect { edge with dest := id, destPort := 0, gain := 1 }).2.connect
            { edge with source := id, sourcePort := 0 }).2) := by
  rw [insertBetween, run_bind, run_demand]
  cases patch.node? before with
  | none => rfl
  | some source =>
    dsimp only
    rw [run_bind, run_demand]
    cases patch.node? after with
    | none => rfl
    | some dest =>
      dsimp only
      rw [run_bind, run_get]
      dsimp only
      cases patch.between? before after <;> rfl

theorem run_bypass (patch : Patch ν) (id : NodeId) : (bypass id).run.run patch =
    match (remove id).run.run patch with
    | (.error error, rest) => (.error error, rest)
    | (.ok node, rest) => (.ok node, (Patch.bridges
        ((patch.liveEdges.map Prod.snd).filter fun edge => edge.dest = id ∧ edge.source ≠ id)
        ((patch.liveEdges.map Prod.snd).filter fun edge => edge.source = id ∧ edge.dest ≠ id)).foldl
          (fun patch edge => (patch.connect edge).2) rest) := by
  rw [bypass, run_bind, run_demand, run_remove]
  cases present : patch.node? id with
  | none => rfl
  | some node =>
    dsimp only
    rw [run_bind, run_get]
    dsimp only
    rw [run_bind, run_remove, present]
    rfl

/-! ## Refusals -/

/-- Where the edit is refused, the patch stays as it was. -/
def Clean (edit : Editing ν α) : Prop :=
  ∀ ⦃patch : Patch ν⦄ ⦃error⦄, (edit.run.run patch).1 = .error error → (edit.run.run patch).2 = patch

theorem remove_clean (id : NodeId) : (remove id : Editing ν ν).Clean := by
  intro patch error
  rw [run_remove]
  cases patch.node? id with
  | none => exact fun _ => rfl
  | some => exact nofun

theorem replace_clean (id : NodeId) (node : ν) : (replace id node).Clean := by
  intro patch error
  rw [run_replace]
  cases patch.node? id with
  | none => exact fun _ => rfl
  | some => exact nofun

theorem insertBetween_clean (before after : NodeId) (node : ν) : (insertBetween before after node).Clean := by
  intro patch error
  rw [run_insertBetween]
  repeat' split
  all_goals first | exact fun _ => rfl | exact nofun

theorem bypass_clean (id : NodeId) : (bypass id : Editing ν ν).Clean := by
  intro patch error
  have clean := @remove_clean ν id patch
  rw [run_bypass]
  generalize (remove id).run.run patch = removed at clean
  rcases removed with ⟨_ | _, rest⟩
  · exact fun _ => clean rfl
  · exact nofun

variable {edit : Editing ν α} {reply : α → β} {patch : Patch ν}

theorem run_map : (reply <$> edit).run.run patch = ((edit.run.run patch).1.map reply, (edit.run.run patch).2) := by
  rw [map_eq_pure_bind, run_bind]
  generalize edit.run.run patch = result
  rcases result with ⟨_ | _, _⟩ <;> rfl

/-- What is told of an edit's answer is told of no refusal. -/
theorem Clean.refused (clean : edit.Clean) {error : EditError}
    (refused : ((reply <$> edit).run.run patch).1 = .error error) :
    patch.attempt edit = .error error ∧ ((reply <$> edit).run.run patch).2 = patch := by
  rw [run_map] at refused ⊢
  have same := @clean patch error
  unfold Patch.attempt
  generalize edit.run.run patch = result at refused same
  rcases result with ⟨_ | _, _⟩
  · cases refused
    exact ⟨rfl, same rfl⟩
  · cases refused

theorem answered {answer : β} (answered : ((reply <$> edit).run.run patch).1 = .ok answer) :
    ∃ result, answer = reply result ∧ patch.attempt edit = .ok (result, ((reply <$> edit).run.run patch).2) := by
  rw [run_map] at answered ⊢
  unfold Patch.attempt
  generalize edit.run.run patch = result at answered
  rcases result with ⟨_ | result, _⟩
  · cases answered
  · cases answered
    exact ⟨result, rfl, rfl⟩

end Editing

/-! ## What is attempted -/

namespace Patch

theorem remove_eq (patch : Patch ν) (id : NodeId) : patch.remove id =
    match patch.node? id with
    | none => .error (.nodeNotFound id)
    | some node => .ok (node, {
        nodes := patch.nodes.setIfInBounds id.index none
        edges := patch.edges.map fun edge => edge.filter fun edge => edge.source ≠ id && edge.dest ≠ id
        sink := patch.sink.filter (· ≠ id) }) := by
  rw [remove, attempt, Editing.run_remove]
  cases patch.node? id <;> rfl

theorem replace_eq (patch : Patch ν) (id : NodeId) (node : ν) : patch.replace id node =
    match patch.node? id with
    | none => .error (.nodeNotFound id)
    | some old => .ok (old, { patch with nodes := patch.nodes.setIfInBounds id.index (some node) }) := by
  rw [replace, attempt, Editing.run_replace]
  cases patch.node? id <;> rfl

theorem insertBetween_eq (patch : Patch ν) (before after : NodeId) (node : ν) : patch.insertBetween before after node =
    if (patch.node? before).isNone then .error (.nodeNotFound before)
    else if (patch.node? after).isNone then .error (.nodeNotFound after)
    else match patch.between? before after with
      | none => .error (.edgeNotFound before after)
      | some (spliced, edge) =>
          let (id, rest) := (patch.disconnect spliced).2.add node
          .ok (id, ((rest.connect { edge with dest := id, destPort := 0, gain := 1 }).2.connect
            { edge with source := id, sourcePort := 0 }).2) := by
  rw [insertBetween, attempt, Editing.run_insertBetween]
  cases patch.node? before with
  | none => rfl
  | some source =>
    cases patch.node? after with
    | none => rfl
    | some dest => cases patch.between? before after <;> rfl

theorem bypass_eq (patch : Patch ν) (id : NodeId) : patch.bypass id =
    match patch.remove id with
    | .error error => .error error
    | .ok (node, rest) => .ok (node, (bridges
        ((patch.liveEdges.map Prod.snd).filter fun edge => edge.dest = id ∧ edge.source ≠ id)
        ((patch.liveEdges.map Prod.snd).filter fun edge => edge.source = id ∧ edge.dest ≠ id)).foldl
          (fun patch edge => (patch.connect edge).2) rest) := by
  rw [bypass, remove, attempt, attempt, Editing.run_bypass]
  generalize (Editing.remove id).run.run patch = removed
  rcases removed with ⟨_ | _, _⟩ <;> rfl

end Patch

end Patchbay
