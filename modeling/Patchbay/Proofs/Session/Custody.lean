import Mathlib.Data.List.Nodup
import Mathlib.Data.List.Perm.Lattice
import Mathlib.Data.List.Range
import Patchbay.Session.Basic

/-! Who holds what while plans change hands.

A control side that offers, withdraws and collects and a renderer that picks up
and installs take turns, one channel operation at a time, in any order. What is
accepted is numbered, and a ledger says where every number is. Nothing is lost
and nothing is there twice, and what the renderer installs comes in the order in
which it was accepted.
-/

set_option autoImplicit false

namespace Patchbay

namespace Handoff

variable {α β : Type}

/-! ## Swapping does not look at what it hands over -/

section Naturality

variable (change : α → β) (handoff : Handoff α)

theorem pickUp_map : (handoff.map change).pickUp = handoff.pickUp.map change := by
  obtain ⟨_, _ | _, _, _⟩ := handoff <;> rfl

theorem install_map : (handoff.map change).install = handoff.install.map change := by
  obtain ⟨_, _ | next, _ | old, retired⟩ := handoff
  · rfl
  · rfl
  · rfl
  · by_cases room : retired.length < retiredRoom <;> simp [install, map, room]

theorem swap_map : (handoff.map change).swap = handoff.swap.map change := by
  rw [swap, swap, pickUp_map, install_map]

end Naturality

theorem install_cases (handoff : Handoff α) :
    ((handoff.pending = none ∨ handoff.current.isSome ∧ retiredRoom ≤ handoff.retired.length) ∧
      handoff.install = handoff) ∨
    ∃ next, handoff.pending = some next ∧
      (handoff.current = none ∨ handoff.retired.length < retiredRoom) ∧
      handoff.install = { handoff with
        pending := none
        current := some next
        retired := handoff.retired ++ handoff.current.toList } := by
  obtain ⟨offered, _ | next, _ | old, retired⟩ := handoff
  · exact .inl ⟨.inl rfl, rfl⟩
  · exact .inl ⟨.inl rfl, rfl⟩
  · exact .inr ⟨next, rfl, .inl rfl, by simp [install]⟩
  · by_cases room : retired.length < retiredRoom
    · exact .inr ⟨next, rfl, .inr room, if_pos room⟩
    · exact .inl ⟨.inr ⟨rfl, Nat.le_of_not_lt room⟩, if_neg room⟩

theorem submit_eq (handoff : Handoff α) (item : α) : handoff.submit item = { handoff with offered := some item } := by
  obtain ⟨_ | _, _, _, _⟩ := handoff <;> rfl

theorem toList_pickUp (handoff : Handoff α) : handoff.pickUp.toList = handoff.toList := by
  obtain ⟨_, _ | _, _, _⟩ := handoff <;> simp [pickUp, toList]

theorem toList_install (handoff : Handoff α) : handoff.install.toList = handoff.toList := by
  rcases handoff.install_cases with ⟨_, kept⟩ | ⟨next, pending, _, installed⟩
  · rw [kept]
  · simp [installed, toList, pending]

inductive Move (α : Type) where
  | offer (item : α)
  | withdraw
  | collect
  | pickUp
  | install
  /-- Plans change where they are, as they are rendered or tended. -/
  | change (update : Nat → α → α)

inductive Place where
  | offered
  | pending
  | current
  | retired
  | takenOut
  deriving DecidableEq

def Place.all : List Place := [.takenOut, .retired, .current, .pending, .offered]

theorem Place.mem_all (place : Place) : place ∈ all := by
  cases place <;> decide

end Handoff

/-- A handoff of numbered things, and what has become of them. -/
structure Ledger (α : Type) where
  /-- Everything handed over, with the number under which it was accepted. -/
  handoff : Handoff (Nat × α) := {}
  accepted : Nat := 0
  /-- What the control side withdrew or collected. -/
  takenOut : List Nat := []
  /-- What became current, the first first. -/
  installed : List Nat := []

namespace Ledger

open Handoff

variable {α : Type}

def numbers (ledger : Ledger α) : Handoff Nat := ledger.handoff.map Prod.fst

def move (ledger : Ledger α) : Move α → Ledger α
  | .offer item =>
      match ledger.handoff.offer (ledger.accepted, item) with
      | none => ledger
      | some handoff => { ledger with handoff, accepted := ledger.accepted + 1 }
  | .withdraw =>
      let (taken, handoff) := ledger.handoff.withdraw
      { ledger with handoff, takenOut := ledger.takenOut ++ (taken.map Prod.fst).toList }
  | .collect =>
      let (taken, handoff) := ledger.handoff.collect
      { ledger with handoff, takenOut := ledger.takenOut ++ (taken.map Prod.fst).toList }
  | .pickUp => { ledger with handoff := ledger.handoff.pickUp }
  | .install => { ledger with handoff := ledger.handoff.install }
  | .change update =>
      { ledger with handoff := ledger.handoff.map fun (number, item) => (number, update number item) }

def after (ledger : Ledger α) (move : Move α) : Ledger α :=
  let next := ledger.move move
  if next.numbers.current = ledger.numbers.current then next
  else { next with installed := ledger.installed ++ next.numbers.current.toList }

def run (moves : List (Move α)) : Ledger α := moves.foldl after {}

def inPlace (ledger : Ledger α) : Place → List Nat
  | .offered => ledger.numbers.offered.toList
  | .pending => ledger.numbers.pending.toList
  | .current => ledger.numbers.current.toList
  | .retired => ledger.numbers.retired
  | .takenOut => ledger.takenOut

/-- What may still become current, in the order in which it would. -/
def waiting (ledger : Ledger α) : List Nat :=
  ledger.numbers.pending.toList ++ ledger.numbers.offered.toList

/-! ## What every operation keeps -/

structure Sound (ledger : Ledger α) : Prop where
  /-- Whatever was accepted is held or was taken out, and only once. -/
  kept : (ledger.takenOut ++ ledger.numbers.toList).Perm (List.range ledger.accepted)
  /-- What waits was accepted after what has been installed. -/
  ordered : (ledger.installed ++ ledger.waiting).Pairwise (· < ·)
  numbered : ∀ number ∈ ledger.installed ++ ledger.waiting, number < ledger.accepted
  latest : ledger.installed.getLast? = ledger.numbers.current
  room : ledger.numbers.retired.length ≤ retiredRoom
  /-- What is given back was replaced by something. -/
  replaced : ledger.numbers.current = none → ledger.numbers.retired = []

theorem sound_empty : ({} : Ledger α).Sound where
  kept := .refl []
  ordered := .nil
  numbered := nofun
  latest := rfl
  room := Nat.zero_le _
  replaced _ := rfl

theorem after_eq {ledger : Ledger α} {move : Move α}
    (same : (ledger.move move).numbers.current = ledger.numbers.current) :
    ledger.after move = ledger.move move := if_pos same

section

variable (ledger : Ledger α) (move : Move α)

theorem after_handoff : (ledger.after move).handoff = (ledger.move move).handoff := by
  dsimp only [after]
  split <;> rfl

theorem after_numbers : (ledger.after move).numbers = (ledger.move move).numbers :=
  congrArg (Handoff.map Prod.fst) (after_handoff ledger move)

theorem after_accepted : (ledger.after move).accepted = (ledger.move move).accepted := by
  dsimp only [after]
  split <;> rfl

theorem after_takenOut : (ledger.after move).takenOut = (ledger.move move).takenOut := by
  dsimp only [after]
  split <;> rfl

theorem change_numbers (update : Nat → α → α) : (ledger.move (.change update)).numbers = ledger.numbers := by
  simp [move, numbers, Handoff.map, Function.comp_def]

end

namespace Sound

variable {ledger : Ledger α}

theorem offer (sound : ledger.Sound) (item : α) : (ledger.after (.offer item)).Sound := by
  obtain ⟨⟨_ | offered, pending, current, retired⟩, accepted, takenOut, installed⟩ := ledger
  · rw [after_eq rfl]
    have kept := sound.kept
    have ordered := sound.ordered
    have numbered := sound.numbered
    simp only [waiting, numbers, Handoff.map, Handoff.toList, Option.map_none, Option.toList_none,
      List.append_nil] at kept ordered numbered
    -- The new number stands behind everything that waits.
    have line : (installed ++ (pending.map Prod.fst).toList ++ [accepted]).Pairwise (· < ·) :=
      List.pairwise_append.mpr ⟨ordered, List.pairwise_singleton _ _, by simpa using numbered⟩
    refine ⟨?_, ?_, fun number member => ?_, sound.latest, sound.room, sound.replaced⟩
    · rw [Ledger.move, Handoff.offer, List.range_succ]
      simpa [numbers, Handoff.map, Handoff.toList] using kept.append_right [accepted]
    · rwa [List.append_assoc] at line
    · have behind : number ∈ installed ++ (pending.map Prod.fst).toList ++ [accepted] := by
        rwa [List.append_assoc]
      rcases List.mem_append.mp behind with old | new
      · exact Nat.lt_succ_of_lt (numbered number old)
      · exact Nat.lt_succ_of_le (List.mem_singleton.mp new).le
  · rw [after_eq rfl]
    exact sound

theorem moved {next : Ledger α} (sound : ledger.Sound) (accepted : next.accepted = ledger.accepted)
    (kept : (next.takenOut ++ next.numbers.toList).Perm (ledger.takenOut ++ ledger.numbers.toList))
    (line : (next.installed ++ next.waiting).Sublist (ledger.installed ++ ledger.waiting))
    (latest : next.installed.getLast? = next.numbers.current)
    (room : next.numbers.retired.length ≤ retiredRoom)
    (replaced : next.numbers.current = none → next.numbers.retired = []) : next.Sound where
  kept := accepted ▸ kept.trans sound.kept
  ordered := sound.ordered.sublist line
  numbered number member := accepted ▸ sound.numbered number (line.subset member)
  latest := latest
  room := room
  replaced := replaced

theorem withdraw (sound : ledger.Sound) : (ledger.after .withdraw).Sound := by
  rw [after_eq rfl]
  refine sound.moved rfl ?_ ?_ sound.latest sound.room sound.replaced
  · have swapped : (ledger.numbers.offered.toList ++ (ledger.numbers.retired ++
        ledger.numbers.current.toList ++ ledger.numbers.pending.toList)).Perm _ := List.perm_append_comm
    simpa [numbers, Ledger.move, Handoff.withdraw, Handoff.map, Handoff.toList] using
      swapped.append_left ledger.takenOut
  · simp [waiting, numbers, Ledger.move, Handoff.withdraw, Handoff.map]

theorem collect (sound : ledger.Sound) : (ledger.after .collect).Sound := by
  obtain ⟨⟨offered, pending, current, _ | ⟨oldest, retired⟩⟩, accepted, takenOut, installed⟩ := ledger
  · rw [after_eq rfl]
    simpa [Ledger.move, Handoff.collect] using sound
  · rw [after_eq rfl]
    refine sound.moved rfl ?_ (List.Sublist.refl _) sound.latest (Nat.le_of_succ_le sound.room)
      fun missing => absurd (sound.replaced missing) (List.cons_ne_nil _ _)
    simp [numbers, Ledger.move, Handoff.collect, Handoff.map, Handoff.toList]

theorem pickUp (sound : ledger.Sound) : (ledger.after .pickUp).Sound := by
  obtain ⟨⟨offered, _ | pending, current, retired⟩, accepted, takenOut, installed⟩ := ledger
  · rw [after_eq rfl]
    refine sound.moved rfl ?_ ?_ sound.latest sound.room sound.replaced
    · simp [numbers, Ledger.move, Handoff.pickUp, Handoff.map, Handoff.toList]
    · simp [waiting, numbers, Ledger.move, Handoff.pickUp, Handoff.map]
  · rw [after_eq rfl]
    exact sound

theorem change (sound : ledger.Sound) (update : Nat → α → α) : (ledger.after (.change update)).Sound := by
  have same := ledger.change_numbers update
  rw [after_eq (congrArg Handoff.current same)]
  refine sound.moved rfl (by rw [same]; rfl) ?_ (same ▸ sound.latest) (same ▸ sound.room) (same ▸ sound.replaced)
  rw [waiting, same]
  exact List.Sublist.refl _

theorem install (sound : ledger.Sound) : (ledger.after .install).Sound := by
  rcases ledger.handoff.install_cases with ⟨_, kept⟩ | ⟨next, pending, free, installed⟩
  · have same : ledger.move .install = ledger := by rw [Ledger.move, kept]
    rwa [after_eq (by rw [same]), same]
  · -- What is installed waited, so it is newer than what it replaces.
    have newer : ∀ old, ledger.numbers.current = some old → old < next.1 := fun old current =>
      (List.pairwise_append.mp sound.ordered).2.2 old (List.mem_of_getLast? (sound.latest.trans current)) next.1
        (by simp [waiting, numbers, Handoff.map, pending])
    have moved : ledger.move .install = { ledger with handoff :=
        { ledger.handoff with
          pending := none
          current := some next
          retired := ledger.handoff.retired ++ ledger.handoff.current.toList } } := by
      rw [Ledger.move, installed]
    rw [Ledger.after, moved, if_neg fun same => Nat.lt_irrefl _ (newer next.1 same.symm)]
    refine sound.moved rfl ?_ ?_ ?_ ?_ nofun
    · simp [numbers, Handoff.map, Handoff.toList, pending, Option.toList_map]
    · simp [waiting, numbers, Handoff.map, pending]
    · simp [numbers, Handoff.map]
    · rcases free with none | room
      · simpa [numbers, Handoff.map, none] using sound.room
      · have bounded : ledger.handoff.current.toList.length ≤ 1 := Option.length_toList_le
        simp only [numbers, Handoff.map, List.length_map, List.length_append]
        omega

theorem after (sound : ledger.Sound) : (move : Move α) → (ledger.after move).Sound
  | .offer item => sound.offer item
  | .withdraw => sound.withdraw
  | .collect => sound.collect
  | .pickUp => sound.pickUp
  | .install => sound.install
  | .change update => sound.change update

end Sound

theorem sound_run (moves : List (Move α)) : (run moves).Sound := by
  suffices kept : ∀ {ledger : Ledger α}, ledger.Sound → (moves.foldl Ledger.after ledger).Sound from
    kept sound_empty
  induction moves with
  | nil => exact id
  | cons move moves kept => exact fun sound => kept (sound.after move)

/-! ## Where everything is -/

namespace Sound

variable {ledger : Ledger α}

theorem everywhere (sound : ledger.Sound) :
    (Place.all.flatMap ledger.inPlace).Perm (List.range ledger.accepted) := by
  simpa [Place.all, inPlace, Handoff.toList] using sound.kept

theorem lt_iff (sound : ledger.Sound) {number : Nat} :
    number < ledger.accepted ↔ ∃ place, number ∈ ledger.inPlace place := by
  simp [← List.mem_range, ← sound.everywhere.mem_iff, Place.mem_all]

theorem nodup (sound : ledger.Sound) (place : Place) : (ledger.inPlace place).Nodup :=
  (List.nodup_flatMap.mp (sound.everywhere.nodup_iff.mpr List.nodup_range)).1 place (Place.mem_all place)

theorem place_unique (sound : ledger.Sound) {number : Nat} {one other : Place}
    (inOne : number ∈ ledger.inPlace one) (inOther : number ∈ ledger.inPlace other) : one = other := by
  have apart := (List.nodup_flatMap.mp (sound.everywhere.nodup_iff.mpr List.nodup_range)).2
  have : Std.Symm (Function.onFun List.Disjoint ledger.inPlace) := ⟨fun _ _ => List.Disjoint.symm⟩
  by_contra different
  exact apart.forall (Place.mem_all one) (Place.mem_all other) different inOne inOther

end Sound

/-- Between two blocks the renderer keeps everything that it holds, and the order
of it. -/
theorem renderer_keeps (ledger : Ledger α) {move : Move α} (own : move = .pickUp ∨ move = .install) :
    (ledger.after move).handoff.toList = ledger.handoff.toList ∧
      (ledger.after move).takenOut = ledger.takenOut := by
  rw [after_handoff, after_takenOut]
  rcases own with rfl | rfl
  · exact ⟨ledger.handoff.toList_pickUp, rfl⟩
  · exact ⟨ledger.handoff.toList_install, rfl⟩

theorem Sound.install_full {ledger : Ledger α} (sound : ledger.Sound)
    (full : ledger.handoff.retired.length = retiredRoom) : ledger.after .install = ledger := by
  have same : ledger.move .install = ledger := by
    rcases ledger.handoff.install_cases with ⟨_, kept⟩ | ⟨next, _, none | room, _⟩
    · rw [Ledger.move, kept]
    · have empty : ledger.handoff.retired = [] := by
        simpa [numbers, Handoff.map] using sound.replaced (by simp [numbers, Handoff.map, none])
      simp [empty, retiredRoom] at full
    · omega
  rw [after_eq (by rw [same]), same]

/-- Nothing that was accepted is lost, nothing is in two places, and what becomes
current does so in the order in which it was accepted. -/
theorem kept_once (moves : List (Move α)) :
    let ledger := run moves
    (∀ number < ledger.accepted, ∃! place, number ∈ ledger.inPlace place) ∧
    (∀ place, (ledger.inPlace place).Nodup ∧ ∀ number ∈ ledger.inPlace place, number < ledger.accepted) ∧
    (∀ move, move = .pickUp ∨ move = .install →
      (ledger.after move).handoff.toList = ledger.handoff.toList ∧
      (ledger.after move).takenOut = ledger.takenOut) ∧
    (ledger.handoff.retired.length = retiredRoom → ledger.after .install = ledger) ∧
    (ledger.inPlace .offered).length ≤ 1 ∧ (ledger.inPlace .retired).length ≤ retiredRoom ∧
    ledger.installed.Pairwise (· < ·) ∧ (∀ number ∈ ledger.installed, number < ledger.accepted) ∧
    ledger.installed.getLast? = ledger.numbers.current := by
  intro ledger
  have sound : ledger.Sound := sound_run moves
  refine ⟨fun number accepted => ?_, fun place => ⟨sound.nodup place, fun number here => ?_⟩,
    fun _ own => ledger.renderer_keeps own, sound.install_full, Option.length_toList_le, sound.room,
    (List.pairwise_append.mp sound.ordered).1,
    fun number installed => sound.numbered number (List.mem_append_left _ installed), sound.latest⟩
  · obtain ⟨place, here⟩ := sound.lt_iff.mp accepted
    exact ⟨place, here, fun other there => sound.place_unique there here⟩
  · exact sound.lt_iff.mpr ⟨place, here⟩

end Ledger

end Patchbay
