import Patchbay.Proofs.Render.Refinement
import Patchbay.Proofs.Session.Calls
import Patchbay.Proofs.Session.Custody

/-! The submission that is accepted last comes to be played.

A submission offers its plan, and while an earlier offer still stands it takes
that one back and offers again. Any number of submissions, a collector and the
renderer take turns, one channel operation at a time. Once no submission is under
way, the plan accepted last is the newest one held, and as the renderer goes on
it draws what it holds towards itself: every turn of its own brings it nearer,
and no turn of another puts it back.
-/

set_option autoImplicit false

namespace Patchbay

namespace Handoff

variable {α : Type}

theorem newest?_map {β : Type} (change : α → β) (handoff : Handoff α) :
    (handoff.map change).newest? = handoff.newest?.map change := by
  obtain ⟨_ | _, _ | _, _, _⟩ := handoff <;> rfl

theorem newest?_pickUp (handoff : Handoff α) : handoff.pickUp.newest? = handoff.newest? := by
  obtain ⟨_ | _, _ | _, _, _⟩ := handoff <;> rfl

theorem newest?_install (handoff : Handoff α) : handoff.install.newest? = handoff.newest? := by
  rcases handoff.install_cases with ⟨_, kept⟩ | ⟨next, pending, _, installed⟩
  · rw [kept]
  · simp [installed, newest?, pending]

end Handoff

/-! ## Turns -/

inductive Submission (α : Type) where
  | offering (item : α)
  /-- An offer was refused. -/
  | withdrawing (item : α)

/-- A handoff between any number of submissions and a renderer. -/
structure Traffic (α : Type) where
  ledger : Ledger α := {}
  submissions : List (Submission α) := []
  /-- The renderer has picked up and not installed yet. -/
  amid : Bool := false

inductive Turn (α : Type) where
  /-- Another submission is made. -/
  | submit (item : α)
  /-- One of the submissions under way goes on. -/
  | goOn (position : Nat)
  | collect
  | render
  | change (update : Nat → α → α)

namespace Turn

variable {α : Type}

def isRender : Turn α → Bool
  | .render => true
  | _ => false

def Quiet : Turn α → Prop
  | .submit _ | .goOn _ => False
  | _ => True

end Turn

namespace Traffic

variable {α : Type}

def proceed (traffic : Traffic α) (position : Nat) : Submission α → Traffic α
  | .offering item =>
      match traffic.ledger.handoff.offered with
      | none =>
          { traffic with
            ledger := traffic.ledger.after (.offer item)
            submissions := traffic.submissions.eraseIdx position }
      | some _ => { traffic with submissions := traffic.submissions.set position (.withdrawing item) }
  | .withdrawing item =>
      { traffic with
        ledger := traffic.ledger.after .withdraw
        submissions := traffic.submissions.set position (.offering item) }

def after (traffic : Traffic α) : Turn α → Traffic α
  | .submit item => { traffic with submissions := traffic.submissions ++ [.offering item] }
  | .goOn position =>
      match traffic.submissions[position]? with
      | none => traffic
      | some submission => traffic.proceed position submission
  | .collect => { traffic with ledger := traffic.ledger.after .collect }
  | .render =>
      if traffic.amid then { traffic with ledger := traffic.ledger.after .install, amid := false }
      else { traffic with ledger := traffic.ledger.after .pickUp, amid := true }
  | .change update => { traffic with ledger := traffic.ledger.after (.change update) }

def run (turns : List (Turn α)) : Traffic α := turns.foldl after {}

theorem run_concat (turns : List (Turn α)) (turn : Turn α) :
    run (turns ++ [turn]) = (run turns).after turn := by
  simp [run]

theorem after_render_ledger (traffic : Traffic α) :
    (traffic.after .render).ledger = traffic.ledger.after (if traffic.amid then .install else .pickUp) := by
  dsimp only [after]
  split <;> rfl

theorem after_moves (traffic : Traffic α) (turn : Turn α) :
    (traffic.after turn).ledger = traffic.ledger ∨
      ∃ move, (traffic.after turn).ledger = traffic.ledger.after move := by
  cases turn with
  | submit item => exact .inl rfl
  | goOn position =>
      dsimp only [after]
      split
      · exact .inl rfl
      · dsimp only [proceed]
        split
        · split
          · exact .inr ⟨_, rfl⟩
          · exact .inl rfl
        · exact .inr ⟨_, rfl⟩
  | collect => exact .inr ⟨_, rfl⟩
  | render => exact .inr ⟨_, traffic.after_render_ledger⟩
  | change update => exact .inr ⟨_, rfl⟩

theorem exists_moves (turns : List (Turn α)) : ∃ moves, (run turns).ledger = Ledger.run moves := by
  induction turns using List.reverseRecOn with
  | nil => exact ⟨[], rfl⟩
  | append_singleton turns turn before =>
      obtain ⟨moves, same⟩ := before
      rw [run_concat]
      rcases (run turns).after_moves turn with kept | ⟨move, moved⟩
      · exact ⟨moves, kept.trans same⟩
      · exact ⟨moves ++ [move], by rw [moved, same, Ledger.run, Ledger.run, List.foldl_concat]⟩

theorem sound (turns : List (Turn α)) : (run turns).ledger.Sound := by
  obtain ⟨moves, same⟩ := exists_moves turns
  exact same ▸ Ledger.sound_run moves

/-! ## The newest is the one accepted last -/

/-- Once nobody submits, what was accepted last has not been replaced. -/
def Latest (traffic : Traffic α) : Prop :=
  traffic.submissions = [] → ∀ last, traffic.ledger.accepted = last + 1 →
    traffic.ledger.numbers.newest? = some last

theorem Latest.of_same {traffic next : Traffic α} (latest : traffic.Latest)
    (submissions : next.submissions = traffic.submissions)
    (accepted : next.ledger.accepted = traffic.ledger.accepted)
    (newest : next.ledger.numbers.newest? = traffic.ledger.numbers.newest?) : next.Latest := by
  intro none last count
  rw [newest]
  exact latest (submissions ▸ none) last (accepted ▸ count)

theorem Latest.proceed {traffic : Traffic α} {position : Nat} {submission : Submission α}
    (inside : position < traffic.submissions.length) : (traffic.proceed position submission).Latest := by
  have left (other : Submission α) : traffic.submissions.set position other ≠ [] := by
    rw [ne_eq, List.set_eq_nil_iff]
    exact List.ne_nil_of_length_pos (Nat.zero_lt_of_lt inside)
  dsimp only [Traffic.proceed]
  split
  · split
    · rename_i item free
      intro _ last count
      rw [Ledger.after_accepted] at count
      rw [Ledger.after_numbers]
      simp only [Ledger.move, Handoff.offer, free] at count ⊢
      cases count
      rfl
    · exact fun none => absurd none (left _)
  · exact fun none => absurd none (left _)

theorem Latest.after {traffic : Traffic α} (latest : traffic.Latest) (turn : Turn α) :
    (traffic.after turn).Latest := by
  cases turn with
  -- Whoever has just submitted is still among the submissions.
  | submit item => exact fun none => absurd none (by simp [Traffic.after])
  | goOn position =>
      dsimp only [Traffic.after]
      split
      · exact latest
      · rename_i found
        exact .proceed (List.getElem?_eq_some_iff.mp found).1
  | collect => exact latest.of_same rfl (Ledger.after_accepted ..) (by rw [Traffic.after, Ledger.after_numbers]; rfl)
  | render =>
      refine latest.of_same ?_ ?_ ?_
      · dsimp only [Traffic.after]
        split <;> rfl
      · rw [after_render_ledger, Ledger.after_accepted]
        split <;> rfl
      · rw [after_render_ledger, Ledger.after_numbers]
        split
        · rw [Ledger.numbers, Ledger.move, ← Handoff.install_map, Handoff.newest?_install]
          rfl
        · rw [Ledger.numbers, Ledger.move, ← Handoff.pickUp_map, Handoff.newest?_pickUp]
          rfl
  | change update =>
      refine latest.of_same rfl (Ledger.after_accepted ..) ?_
      rw [Traffic.after, Ledger.after_numbers, Ledger.change_numbers]

theorem latest (turns : List (Turn α)) : (run turns).Latest := by
  induction turns using List.reverseRecOn with
  | nil => exact fun _ _ count => absurd count (Nat.zero_ne_add_one _)
  | append_singleton turns turn before =>
      rw [run_concat]
      exact before.after turn

end Traffic

/-! ## The renderer draws it in -/

namespace Handoff

variable {α β : Type}

/-- How many steps the renderer needs, at most, to install everything that waits,
amid two blocks or before a block. -/
def due (handoff : Handoff α) (amid : Bool) : Nat :=
  match handoff.offered, handoff.pending, amid with
  | none, none, _ => 0
  | none, some _, true => 1
  | none, some _, false => 2
  | some _, none, false => 2
  | some _, none, true => 3
  | some _, some _, true => 3
  | some _, some _, false => 4

def Roomy (handoff : Handoff α) : Prop :=
  handoff.retired.length + handoff.pending.toList.length + handoff.offered.toList.length ≤ retiredRoom

theorem due_le (handoff : Handoff α) (amid : Bool) : handoff.due amid ≤ 4 := by
  unfold due
  split <;> decide

theorem settled {handoff : Handoff α} {amid : Bool} (done : handoff.due amid = 0) :
    handoff.offered = none ∧ handoff.pending = none := by
  unfold due at done
  split at done <;> first | contradiction | exact ⟨‹_›, ‹_›⟩

theorem due_map (change : α → β) (handoff : Handoff α) (amid : Bool) :
    (handoff.map change).due amid = handoff.due amid := by
  obtain ⟨_ | _, _ | _, _, _⟩ := handoff <;> cases amid <;> rfl

theorem roomy_map {change : α → β} {handoff : Handoff α} (roomy : handoff.Roomy) :
    (handoff.map change).Roomy := by
  simpa [Roomy, map, Option.toList_map] using roomy

namespace Roomy

variable {handoff : Handoff α}

theorem of_two (room : handoff.retired.length + 2 ≤ retiredRoom) : handoff.Roomy := by
  have one : handoff.pending.toList.length ≤ 1 := Option.length_toList_le
  have other : handoff.offered.toList.length ≤ 1 := Option.length_toList_le
  unfold Roomy
  omega

theorem collect (roomy : handoff.Roomy) : handoff.collect.2.Roomy := by
  unfold Roomy at roomy ⊢
  simp only [Handoff.collect, List.length_tail]
  omega

theorem pickUp (roomy : handoff.Roomy) :
    handoff.pickUp.Roomy ∧ handoff.pickUp.due true ≤ handoff.due false - 1 := by
  obtain ⟨_ | _, _ | _, _, _⟩ := handoff <;> exact ⟨roomy, by simp [due, Handoff.pickUp]⟩

theorem install (roomy : handoff.Roomy) :
    handoff.install.Roomy ∧ handoff.install.due false ≤ handoff.due true - 1 := by
  obtain ⟨offered, pending, current, retired⟩ := handoff
  have bounded : current.toList.length ≤ 1 := Option.length_toList_le
  rcases install_cases ⟨offered, pending, current, retired⟩ with ⟨idle, kept⟩ | ⟨next, rfl, _, installed⟩
  · -- Something pending would have room, so nothing is.
    obtain rfl : pending = none := by
      rcases idle with none | ⟨_, full⟩
      · exact none
      · refine Option.toList_eq_nil_iff.mp (List.eq_nil_of_length_eq_zero ?_)
        simp only [Roomy] at roomy full
        omega
    rw [kept]
    exact ⟨roomy, by cases offered <;> simp [due]⟩
  · rw [installed]
    refine ⟨?_, by cases offered <;> simp [due]⟩
    simp only [Roomy, Option.toList_some, Option.toList_none, List.length_append, List.length_singleton,
      List.length_nil] at roomy ⊢
    omega

end Roomy

end Handoff

namespace Traffic

variable {α : Type}

def due (traffic : Traffic α) : Nat := traffic.ledger.handoff.due traffic.amid

/-- A turn of the renderer brings everything nearer, and the others that are not
steps of a submission put nothing back. -/
theorem due_after {traffic : Traffic α} (roomy : traffic.ledger.handoff.Roomy) {turn : Turn α}
    (quiet : turn.Quiet) : (traffic.after turn).ledger.handoff.Roomy ∧
      (traffic.after turn).due ≤ traffic.due - turn.isRender.toNat := by
  obtain ⟨ledger, submissions, amid⟩ := traffic
  cases turn with
  | submit | goOn => exact quiet.elim
  | collect =>
      simp only [Traffic.after, due, Ledger.after_handoff]
      exact ⟨roomy.collect, Nat.le_refl _⟩
  | render =>
      cases amid with
      | false =>
          change (ledger.after .pickUp).handoff.Roomy ∧ (ledger.after .pickUp).handoff.due true ≤ _
          rw [Ledger.after_handoff]
          exact roomy.pickUp
      | true =>
          change (ledger.after .install).handoff.Roomy ∧ (ledger.after .install).handoff.due false ≤ _
          rw [Ledger.after_handoff]
          exact roomy.install
  | change update =>
      simp only [Traffic.after, due, Ledger.after_handoff]
      exact ⟨Handoff.roomy_map roomy, (Handoff.due_map _ _ _).le⟩

theorem quiet_keeps (traffic : Traffic α) {turn : Turn α} (quiet : turn.Quiet) :
    (traffic.after turn).submissions = traffic.submissions ∧
      (traffic.after turn).ledger.accepted = traffic.ledger.accepted := by
  cases turn with
  | submit | goOn => exact quiet.elim
  | collect => exact ⟨rfl, Ledger.after_accepted ..⟩
  | render =>
      refine ⟨?_, ?_⟩
      · dsimp only [Traffic.after]
        split <;> rfl
      · rw [after_render_ledger, Ledger.after_accepted]
        split <;> rfl
  | change update => exact ⟨rfl, Ledger.after_accepted ..⟩

theorem due_run {turns more : List (Turn α)} (roomy : (run turns).ledger.handoff.Roomy)
    (quiet : ∀ turn ∈ more, turn.Quiet) :
    (run (turns ++ more)).ledger.handoff.Roomy ∧
      (run (turns ++ more)).due ≤ (run turns).due - more.countP Turn.isRender := by
  induction more using List.reverseRecOn with
  | nil => simpa using roomy
  | append_singleton more turn before =>
      obtain ⟨still, near⟩ := before fun turn member => quiet turn (List.mem_append_left _ member)
      obtain ⟨after, nearer⟩ := due_after still (quiet turn (by simp))
      rw [← List.append_assoc, run_concat]
      refine ⟨after, nearer.trans ?_⟩
      rw [List.countP_append, List.countP_singleton]
      cases turn.isRender <;> simp <;> omega

theorem quiet_run {turns more : List (Turn α)} (quiet : ∀ turn ∈ more, turn.Quiet) :
    (run (turns ++ more)).submissions = (run turns).submissions ∧
      (run (turns ++ more)).ledger.accepted = (run turns).ledger.accepted := by
  induction more using List.reverseRecOn with
  | nil => simp
  | append_singleton more turn before =>
      obtain ⟨submissions, accepted⟩ := before fun turn member => quiet turn (List.mem_append_left _ member)
      have kept := (run (turns ++ more)).quiet_keeps (quiet turn (by simp))
      rw [← List.append_assoc, run_concat]
      exact ⟨kept.1.trans submissions, kept.2.trans accepted⟩

theorem swap_turns {turns : List (Turn α)} (before : (run turns).amid = false) :
    (run (turns ++ [.render, .render])).ledger.handoff = (run turns).ledger.handoff.swap ∧
      (run (turns ++ [.render, .render])).amid = false := by
  have two : turns ++ [.render, .render] = turns ++ [.render] ++ [Turn.render] := by simp
  rw [two, run_concat, run_concat]
  simp [after, before, Ledger.after_handoff, Ledger.move, Handoff.swap]

theorem settles {turns more : List (Turn α)} {last : Nat} (idle : (run turns).submissions = [])
    (accepted : (run turns).ledger.accepted = last + 1)
    (room : (run turns).ledger.handoff.retired.length + 2 ≤ Handoff.retiredRoom)
    (quiet : ∀ turn ∈ more, turn.Quiet) (enough : 4 ≤ more.countP Turn.isRender) :
    (run (turns ++ more)).ledger.handoff.offered = none ∧
      (run (turns ++ more)).ledger.handoff.pending = none ∧
      (run (turns ++ more)).ledger.numbers.current = some last := by
  have near := (due_run (.of_two room) quiet).2
  have most : (run turns).due ≤ 4 := Handoff.due_le _ _
  obtain ⟨offered, pending⟩ := Handoff.settled (show (run (turns ++ more)).due = 0 by omega)
  obtain ⟨still, count⟩ := quiet_run quiet
  have newest := latest (turns ++ more) (still.trans idle) last (count.trans accepted)
  refine ⟨offered, pending, ?_⟩
  simpa [Handoff.newest?, Ledger.numbers, Handoff.map, offered, pending] using newest

end Traffic

/-! ## Whole calls -/

namespace Ledger

open Handoff

variable {α : Type} {ledger : Ledger α}

def only (number : Nat) (change : α → α) (other : Nat) (item : α) : α :=
  if other = number then change item else item

theorem Sound.apart (sound : ledger.Sound) {one other : Place} {number : Nat}
    (here : number ∈ ledger.inPlace one) (different : one ≠ other) : number ∉ ledger.inPlace other :=
  fun there => different (sound.place_unique here there)

variable {number : Nat} {change : α → α} {item : α}

theorem map_only {held : Option (Nat × α)} (apart : number ∉ (held.map Prod.fst).toList) :
    held.map (fun (other, item) => (other, only number change other item)) = held := by
  cases held with
  | none => rfl
  | some entry => simp_all [only, eq_comm]

theorem list_map_only {held : List (Nat × α)} (apart : number ∉ held.map Prod.fst) :
    held.map (fun (other, item) => (other, only number change other item)) = held := by
  refine (List.map_congr_left fun entry member => ?_).trans (List.map_id _)
  have other : entry.1 ≠ number := fun same => apart (same ▸ List.mem_map_of_mem member)
  simp [only, other]

section

variable (sound : ledger.Sound)

include sound

theorem Sound.only_offered (offered : ledger.handoff.offered = some (number, item)) :
    (ledger.after (.change (only number change))).handoff =
      { ledger.handoff with offered := some (number, change item) } := by
  have here : number ∈ ledger.inPlace .offered := by simp [inPlace, numbers, Handoff.map, offered]
  rw [after_handoff, move, Handoff.map, map_only (sound.apart here (by decide : Place.offered ≠ .pending)),
    map_only (sound.apart here (by decide : Place.offered ≠ .current)),
    list_map_only (sound.apart here (by decide : Place.offered ≠ .retired))]
  simp [offered, only]

theorem Sound.only_pending (pending : ledger.handoff.pending = some (number, item)) :
    (ledger.after (.change (only number change))).handoff =
      { ledger.handoff with pending := some (number, change item) } := by
  have here : number ∈ ledger.inPlace .pending := by simp [inPlace, numbers, Handoff.map, pending]
  rw [after_handoff, move, Handoff.map, map_only (sound.apart here (by decide : Place.pending ≠ .offered)),
    map_only (sound.apart here (by decide : Place.pending ≠ .current)),
    list_map_only (sound.apart here (by decide : Place.pending ≠ .retired))]
  simp [pending, only]

theorem Sound.only_current (current : ledger.handoff.current = some (number, item)) :
    (ledger.after (.change (only number change))).handoff =
      { ledger.handoff with current := some (number, change item) } := by
  have here : number ∈ ledger.inPlace .current := by simp [inPlace, numbers, Handoff.map, current]
  rw [after_handoff, move, Handoff.map, map_only (sound.apart here (by decide : Place.current ≠ .offered)),
    map_only (sound.apart here (by decide : Place.current ≠ .pending)),
    list_map_only (sound.apart here (by decide : Place.current ≠ .retired))]
  simp [current, only]

theorem Sound.only_newest (newest : ledger.handoff.newest? = some (number, item)) :
    (ledger.after (.change (only number change))).handoff.map Prod.snd =
      (ledger.handoff.map Prod.snd).modifyNewest change := by
  cases offered : ledger.handoff.offered with
  | some entry =>
      obtain rfl : entry = (number, item) := by simpa [newest?, offered] using newest
      rw [sound.only_offered offered]
      simp [modifyNewest, Handoff.map, offered]
  | none =>
      cases pending : ledger.handoff.pending with
      | some entry =>
          obtain rfl : entry = (number, item) := by simpa [newest?, offered, pending] using newest
          rw [sound.only_pending pending]
          simp [modifyNewest, Handoff.map, offered, pending]
      | none =>
          have current : ledger.handoff.current = some (number, item) := by
            simpa [newest?, offered, pending] using newest
          rw [sound.only_current current]
          simp [modifyNewest, Handoff.map, offered, pending, current]

end

end Ledger

namespace Traffic

variable {ν : Type}

/-- Between two calls, a session holds what the turns so far have handed over. -/
structure Shows (traffic : Traffic (ActivePlan ν)) (session : Session ν) : Prop where
  plans : session.plans = traffic.ledger.handoff.map Prod.snd
  before : traffic.amid = false

variable {turns : List (Turn (ActivePlan ν))} {session : Session ν}

theorem collect_turns (turns : List (Turn (ActivePlan ν))) (count : Nat) :
    (run (turns ++ List.replicate count .collect)).ledger.handoff = { (run turns).ledger.handoff with
      retired := (run turns).ledger.handoff.retired.drop count } ∧
    (run (turns ++ List.replicate count .collect)).amid = (run turns).amid := by
  induction count with
  | zero => simp
  | succ count before =>
      rw [List.replicate_succ', ← List.append_assoc, run_concat]
      refine ⟨?_, before.2⟩
      rw [after, Ledger.after_handoff, Ledger.move, before.1]
      simp [Handoff.collect, List.tail_drop]

theorem Shows.collect (shows : (run turns).Shows session) :
    ∃ more, (∀ turn ∈ more, turn.Quiet) ∧ more.countP Turn.isRender = 0 ∧
      (run (turns ++ more)).Shows session.collect.2 := by
  obtain ⟨collected, amid⟩ := collect_turns turns session.plans.retired.length
  refine ⟨List.replicate session.plans.retired.length .collect, ?_, ?_, ?_, amid.trans shows.before⟩
  · intro turn member
    rw [(List.mem_replicate.mp member).2]
    trivial
  · rw [List.countP_replicate]
    rfl
  · rw [collected, Session.collect, Handoff.collectAll, shows.plans]
    simp [Handoff.map]

theorem Shows.change {update : Nat → ActivePlan ν → ActivePlan ν} {after : Session ν}
    (shows : (run turns).Shows session)
    (plans : after.plans = ((run turns).ledger.after (.change update)).handoff.map Prod.snd) :
    (run (turns ++ [.change update])).Shows after := by
  rw [run_concat]
  exact ⟨plans, shows.before⟩

theorem Shows.swap (shows : (run turns).Shows session) :
    (run (turns ++ [.render, .render])).Shows { session with plans := session.plans.swap } := by
  obtain ⟨swapped, amid⟩ := swap_turns shows.before
  exact ⟨by rw [swapped, shows.plans, Handoff.swap_map], amid⟩

theorem Shows.render [Node ν] {block? : Option AudioBuffer} {after : Session ν} (shows : (run turns).Shows session)
    (running : session.running = true) (rendered : session.render = .ok (block?, after)) :
    ∃ more, (∀ turn ∈ more, turn.Quiet) ∧ more.countP Turn.isRender = 2 ∧ (run (turns ++ more)).Shows after := by
  have shown := shows.swap
  rcases Session.render_cases rendered with ⟨stopped, _⟩ | ⟨_, _, _, rfl⟩ |
    ⟨active, engine, plan, context, _, current, _, _, rfl⟩
  · rw [stopped] at running
    cases running
  · exact ⟨[.render, .render], by simp [Turn.Quiet], rfl, shown⟩
  · have plans : session.plans.swap = (run (turns ++ [.render, .render])).ledger.handoff.map Prod.snd :=
      shown.plans
    rw [plans, Handoff.map, Option.map_eq_some_iff] at current
    obtain ⟨⟨number, _⟩, current, rfl⟩ := current
    -- The block changes the current plan and no other.
    refine ⟨[.render, .render] ++ [.change (Ledger.only number fun _ => ⟨plan, engine⟩)], by simp [Turn.Quiet], rfl, ?_⟩
    rw [← List.append_assoc]
    refine shown.change ?_
    rw [(sound _).only_current current, plans]
    rfl

theorem submit_turns {turns : List (Turn (ActivePlan ν))} (idle : (run turns).submissions = [])
    (active : ActivePlan ν) : ∃ more,
      (run (turns ++ more)).ledger.handoff.map Prod.snd =
        ((run turns).ledger.handoff.map Prod.snd).submit active ∧
      (run (turns ++ more)).submissions = [] ∧ (run (turns ++ more)).amid = (run turns).amid := by
  cases offered : (run turns).ledger.handoff.offered with
  | none =>
      refine ⟨[.submit active, .goOn 0], ?_⟩
      rw [List.append_cons, run_concat, run_concat]
      simp [after, proceed, idle, offered, Ledger.after_handoff, Ledger.move, Handoff.offer, Handoff.map,
        Handoff.submit_eq]
  | some earlier =>
      refine ⟨[.submit active, .goOn 0, .goOn 0, .goOn 0], ?_⟩
      rw [List.append_cons, List.append_cons, List.append_cons, run_concat, run_concat, run_concat, run_concat]
      simp [after, proceed, idle, offered, Ledger.after_handoff, Ledger.move, Handoff.offer, Handoff.withdraw,
        Handoff.map, Handoff.submit_eq]

/-- Turns that nobody is left submitting after lead to what a session holds. -/
def Traces (session : Session ν) : Prop := ∃ turns, (run turns).submissions = [] ∧ (run turns).Shows session

theorem Traces.collect (traces : Traces session) : Traces session.collect.2 := by
  obtain ⟨turns, idle, shows⟩ := traces
  obtain ⟨more, quiet, _, shown⟩ := shows.collect
  exact ⟨turns ++ more, (quiet_run quiet).1.trans idle, shown⟩

theorem Traces.submit {plan : Plan ν} {outcome : Except EngineError Unit} {after : Session ν} (traces : Traces session)
    (submitted : session.submit plan = .ok (outcome, after)) : Traces after := by
  rcases Session.submit_cases submitted with rfl | ⟨active, _, _, rfl⟩
  · exact traces
  · obtain ⟨turns, idle, shows⟩ := traces
    obtain ⟨more, plans, still, amid⟩ := submit_turns idle active
    refine Traces.collect ⟨turns ++ more, still, ?_, amid.trans shows.before⟩
    rw [plans, shows.plans]

/-- Whatever a session has become, turns lead there. -/
theorem Traces.of_reached [Node ν] {settings : Settings} (reached : Session.Reached settings session) :
    Traces session := by
  induction reached with
  | fresh fresh => exact ⟨[], rfl, fresh.plans, rfl⟩
  | submit _ submitted before => exact before.submit submitted
  | @recompile session patch _ before =>
      rcases session.recompile_cases patch with same | ⟨plan, outcome, submitted⟩
      · rwa [same]
      · exact before.submit submitted
  | collect _ before => exact before.collect
  | refresh _ refreshed before =>
      obtain ⟨turns, idle, shows⟩ := before
      -- A new monitor is a change of the newest plan only.
      rcases Session.refresh_cases refreshed with rfl | ⟨active, monitor, newest, rfl⟩
      · exact ⟨turns, idle, shows⟩
      · rw [shows.plans, Handoff.newest?_map, Option.map_eq_some_iff] at newest
        obtain ⟨⟨number, _⟩, newest, rfl⟩ := newest
        refine ⟨turns ++ [.change (Ledger.only number (·.setMonitor monitor))],
          (quiet_run (by simp [Turn.Quiet])).1.trans idle, shows.change ?_⟩
        rw [(sound turns).only_newest newest, shows.plans]
  | @render session after block? _ rendered before =>
      obtain ⟨turns, idle, shows⟩ := before
      cases running : session.running with
      | false =>
          rcases Session.render_cases rendered with ⟨_, _, rfl⟩ | ⟨running', _⟩ | ⟨_, _, _, _, running', _⟩
          · exact ⟨turns, idle, shows⟩
          all_goals exact absurd running' (by simp [running])
      | true =>
          obtain ⟨more, quiet, _, shown⟩ := shows.render running rendered
          exact ⟨turns ++ more, (quiet_run quiet).1.trans idle, shown⟩
  | mapNodes change _ before =>
      obtain ⟨turns, idle, shows⟩ := before
      refine ⟨turns ++ [.change fun _ => ActivePlan.mapNodes change],
        (quiet_run (by simp [Turn.Quiet])).1.trans idle, shows.change ?_⟩
      rw [Ledger.after_handoff, Ledger.move, Session.mapNodes, shows.plans]
      simp [Handoff.map, Function.comp_def]
  | stop _ before =>
      obtain ⟨turns, idle, shows⟩ := before
      exact Traces.collect ⟨turns, idle, shows.plans, shows.before⟩

end Traffic

namespace Session

variable {ν : Type} [Node ν]

inductive Idles (session : Session ν) : (blocks : Nat) → Session ν → Prop where
  | start : Idles session 0 session
  | render {blocks : Nat} {middle after : Session ν} {block : AudioBuffer} : Idles session blocks middle →
      middle.render = .ok (some block, after) → Idles session (blocks + 1) after
  | collect {blocks : Nat} {middle : Session ν} : Idles session blocks middle →
      Idles session blocks middle.collect.2

theorem Idles.shows {turns : List (Turn (ActivePlan ν))} {session after : Session ν} {blocks : Nat}
    (shows : (Traffic.run turns).Shows session) (idles : session.Idles blocks after) :
    ∃ more, (∀ turn ∈ more, turn.Quiet) ∧ more.countP Turn.isRender = 2 * blocks ∧
      (Traffic.run (turns ++ more)).Shows after := by
  induction idles with
  | start => exact ⟨[], by simp, rfl, by simpa using shows⟩
  | @render blocks middle after block _ rendered before =>
      obtain ⟨more, quiet, count, shown⟩ := before
      obtain ⟨further, still, two, shown⟩ := shown.render (running_of_render rendered) rendered
      refine ⟨more ++ further, fun turn member => ?_, ?_, by rwa [← List.append_assoc]⟩
      · exact (List.mem_append.mp member).elim (quiet turn) (still turn)
      · rw [List.countP_append, count, two, Nat.mul_succ]
  | collect _ before =>
      obtain ⟨more, quiet, count, shown⟩ := before
      obtain ⟨further, still, none, shown⟩ := shown.collect
      refine ⟨more ++ further, fun turn member => ?_, ?_, by rwa [← List.append_assoc]⟩
      · exact (List.mem_append.mp member).elim (quiet turn) (still turn)
      · rw [List.countP_append, count, none, Nat.add_zero]

end Session

/-! ## The newest wins -/

namespace Traffic

theorem Shows.current_of_full {ν : Type} {turns : List (Turn (ActivePlan ν))} {session : Session ν}
    (shows : (run turns).Shows session) (full : session.plans.retired.length = Handoff.retiredRoom) :
    session.plans.current ≠ none := by
  intro none
  rw [shows.plans] at none full
  have empty := (sound turns).replaced (by simpa [Ledger.numbers, Handoff.map] using none)
  simp_all [Ledger.numbers, Handoff.map, Handoff.retiredRoom]

end Traffic

namespace Ledger

open Handoff

theorem held_of_newest {α : Type} {ledger : Ledger α} {number : Nat} (newest : ledger.numbers.newest? = some number) :
    ∃ place ∈ [Place.offered, .pending, .current], number ∈ ledger.inPlace place := by
  unfold newest? at newest
  cases offered : ledger.numbers.offered with
  | some => exact ⟨.offered, by simp, by simp_all [inPlace]⟩
  | none =>
      cases pending : ledger.numbers.pending with
      | some => exact ⟨.pending, by simp, by simp_all [inPlace]⟩
      | none => exact ⟨.current, by simp, by simp_all [inPlace]⟩

end Ledger

namespace Handoff

variable {α : Type} {handoff : Handoff α}

/-- As long as nothing can be given back, the current thing stays. -/
theorem current_swap_full (full : handoff.retired.length = retiredRoom) (current : handoff.current ≠ none) :
    handoff.swap.current = handoff.current := by
  have picked : handoff.pickUp.current = handoff.current ∧ handoff.pickUp.retired = handoff.retired := by
    unfold pickUp
    split <;> exact ⟨rfl, rfl⟩
  rcases handoff.pickUp.install_cases with ⟨_, kept⟩ | ⟨_, _, none | room, _⟩
  · rw [swap, kept, picked.1]
  · exact absurd (picked.1.symm.trans none) current
  · rw [picked.2] at room
    omega

end Handoff

open Handoff Traffic in
/-- Once all submissions are over, what was accepted last becomes current within two
blocks, if there is room for what it replaces, and stays. Without room the block
comes from the plan that was current, and what was accepted last is kept. -/
theorem newest_wins {ν : Type} [Node ν] (turns : List (Turn (ActivePlan ν))) (last : Nat)
    (idle : (run turns).submissions = []) (accepted : (run turns).ledger.accepted = last + 1) :
    ((run turns).ledger.handoff.retired.length + 2 ≤ retiredRoom →
      ∀ more : List (Turn (ActivePlan ν)), (∀ turn ∈ more, turn.Quiet) → 4 ≤ more.countP Turn.isRender →
        (run (turns ++ more)).ledger.handoff.offered = none ∧
        (run (turns ++ more)).ledger.handoff.pending = none ∧
        (run (turns ++ more)).ledger.numbers.current = some last) ∧
    ∀ session : Session ν, (run turns).Shows session →
      (session.plans.retired.length + 2 ≤ retiredRoom →
        ∀ blocks after, session.Idles blocks after → 2 ≤ blocks →
          after.plans.offered = none ∧ after.plans.pending = none ∧
          ∃ more, (∀ turn ∈ more, turn.Quiet) ∧ (run (turns ++ more)).Shows after ∧
            (run (turns ++ more)).ledger.numbers.current = some last) ∧
      (session.running = true → session.plans.retired.length = retiredRoom →
        ∃ active, session.plans.current = some active ∧
          session.render = (do
            let (engine, plan, context) ← active.engine.process active.plan session.context
            return (some engine.output,
              { session with plans := { session.plans.swap with current := some ⟨plan, engine⟩ }, context })) ∧
          ∀ block after, session.render = .ok (some block, after) →
            ∃ more, (∀ turn ∈ more, turn.Quiet) ∧ (run (turns ++ more)).Shows after ∧
              ∃ place ∈ [Place.offered, .pending, .current], last ∈ (run (turns ++ more)).ledger.inPlace place) := by
  refine ⟨fun room more quiet enough => settles idle accepted room quiet enough, fun session shows => ⟨?_, ?_⟩⟩
  · intro room blocks after idles two
    obtain ⟨more, quiet, count, shown⟩ := idles.shows shows
    rw [shows.plans] at room
    obtain ⟨offered, pending, current⟩ := settles idle accepted (by simpa [Handoff.map] using room) quiet
      (show 4 ≤ more.countP Turn.isRender by omega)
    refine ⟨?_, ?_, more, quiet, shown, current⟩
    · rw [shown.plans, Handoff.map, offered]
      rfl
    · rw [shown.plans, Handoff.map, pending]
      rfl
  · intro running full
    obtain ⟨active, current⟩ := Option.ne_none_iff_exists'.mp (shows.current_of_full full)
    refine ⟨active, current, ?_, fun block after rendered => ?_⟩
    · refine session.render_eq running ?_
      rw [current_swap_full full (by simp [current]), current]
    · obtain ⟨more, quiet, _, shown⟩ := shows.render running rendered
      obtain ⟨still, count⟩ := quiet_run quiet
      have newest := latest (turns ++ more) (still.trans idle) last (count.trans accepted)
      exact ⟨more, quiet, shown, Ledger.held_of_newest newest⟩

def crowd {α : Type} (item : α) : List (Turn α) :=
  (List.replicate 5 [.submit item, .goOn 0, .render, .render]).flatten ++ [.submit item, .goOn 0]

theorem run_crowd {α : Type} (item : α) : Traffic.run (crowd item) = {
    ledger := {
      handoff := ⟨some (5, item), none, some (4, item), [(0, item), (1, item), (2, item), (3, item)]⟩
      accepted := 6
      installed := [0, 1, 2, 3, 4] } } := by
  simp [crowd, Traffic.run, List.replicate, Traffic.after, Traffic.proceed, Ledger.after, Ledger.move,
    Ledger.numbers, Handoff.offer, Handoff.pickUp, Handoff.install, Handoff.map, Handoff.retiredRoom]

def eased {α : Type} (item : α) : List (Turn α) := crowd item ++ [.collect] ++ [.collect]

theorem run_eased {α : Type} (item : α) : Traffic.run (eased item) = {
    ledger := {
      handoff := ⟨some (5, item), none, some (4, item), [(2, item), (3, item)]⟩
      accepted := 6
      takenOut := [0, 1]
      installed := [0, 1, 2, 3, 4] } } := by
  rw [eased, Traffic.run_concat, Traffic.run_concat, run_crowd]
  rfl

open Handoff Traffic in
theorem constantIntoGain_wins : ∃ (active : ActivePlan Builtin) (session : Session Builtin),
    (run (crowd active)).Shows session ∧ session.running = true ∧ session.plans.retired.length = retiredRoom ∧
    (∃ current, session.plans.current = some current ∧
      session.render = (do
        let (engine, plan, context) ← current.engine.process current.plan session.context
        return (some engine.output,
          { session with plans := { session.plans.swap with current := some ⟨plan, engine⟩ }, context }))) ∧
    (run (eased active ++ [.render, .render, .render, .render])).ledger.numbers.current = some 5 := by
  obtain ⟨plan, _, active, _⟩ : ∃ plan, compile constantIntoGain { blockSize := 4 } = .ok (.ok plan) ∧
      ∃ active, ActivePlan.ofPlan plan = .ok active := by decide +kernel
  obtain ⟨session, running, plans⟩ : ∃ session : Session Builtin, session.running = true ∧
      session.plans = (run (crowd active)).ledger.handoff.map Prod.snd :=
    ⟨⟨{ blockSize := 4, channels := 1 }, true, true, _, .start 48000 4, ⟨#[0, 0, 0, 0], 1⟩, none⟩, rfl, rfl⟩
  have shows : (run (crowd active)).Shows session := ⟨plans, by rw [run_crowd]⟩
  have full : session.plans.retired.length = retiredRoom := by
    rw [plans, run_crowd]
    rfl
  obtain ⟨current, there, renders, _⟩ := ((newest_wins (crowd active) 5 (by rw [run_crowd]) (by rw [run_crowd])).2
    session shows).2 running full
  obtain ⟨_, _, settled⟩ := (newest_wins (eased active) 5 (by rw [run_eased]) (by rw [run_eased])).1
    (by rw [run_eased]; exact Nat.le_refl 4) [.render, .render, .render, .render] (by simp [Turn.Quiet]) (by decide)
  exact ⟨active, session, shows, running, full, ⟨current, there, renders⟩, settled⟩

end Patchbay
