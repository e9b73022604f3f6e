/-! Handing things over to a renderer that must not wait.

The control side offers one thing at a time and may withdraw an offer that was
not picked up. The renderer picks an offer up, and installs it once there is
room to give back what it replaces; until then it keeps what it has. What was
given back is collected by the control side. Each function is one step of one
side, and only `submit`, `swap` and `collectAll` are runs of several.
-/

set_option autoImplicit false

namespace Patchbay

/-- Where everything handed over is. -/
structure Handoff (α : Type) where
  /-- Not picked up yet. -/
  offered : Option α := none
  /-- Picked up and not installed yet. -/
  pending : Option α := none
  current : Option α := none
  /-- Given back and not collected yet, the oldest first. -/
  retired : List α := []
  deriving DecidableEq

namespace Handoff

variable {α : Type}

def toList (handoff : Handoff α) : List α :=
  handoff.retired ++ handoff.current.toList ++ handoff.pending.toList ++ handoff.offered.toList

def retiredRoom : Nat := 4

/-! ## Steps of the control side -/

def offer (handoff : Handoff α) (item : α) : Option (Handoff α) :=
  match handoff.offered with
  | none => some { handoff with offered := some item }
  | some _ => none

def withdraw (handoff : Handoff α) : Option α × Handoff α :=
  (handoff.offered, { handoff with offered := none })

def collect (handoff : Handoff α) : Option α × Handoff α :=
  (handoff.retired.head?, { handoff with retired := handoff.retired.tail })

def submit (handoff : Handoff α) (item : α) : Handoff α :=
  match handoff.offer item with
  | some handoff => handoff
  | none =>
      let (_, handoff) := handoff.withdraw
      (handoff.offer item).getD handoff

def collectAll (handoff : Handoff α) : Nat × Handoff α :=
  (handoff.retired.length, { handoff with retired := [] })

/-! ## Steps of the renderer -/

def pickUp (handoff : Handoff α) : Handoff α :=
  match handoff.pending with
  | none => { handoff with offered := none, pending := handoff.offered }
  | some _ => handoff

/-- Installs what is pending, if what it replaces can be given back. -/
def install (handoff : Handoff α) : Handoff α :=
  match handoff.pending, handoff.current with
  | none, _ => handoff
  | some next, none => { handoff with pending := none, current := some next }
  | some next, some old =>
      if handoff.retired.length < retiredRoom then
        { handoff with
          pending := none
          current := some next
          retired := handoff.retired ++ [old] }
      else handoff

def swap (handoff : Handoff α) : Handoff α := handoff.pickUp.install

/-! ## Views -/

/-- What was offered last, if it has not been replaced since. -/
def newest? (handoff : Handoff α) : Option α :=
  handoff.offered <|> handoff.pending <|> handoff.current

def modifyNewest (handoff : Handoff α) (change : α → α) : Handoff α :=
  if handoff.offered.isSome then { handoff with offered := handoff.offered.map change }
  else if handoff.pending.isSome then { handoff with pending := handoff.pending.map change }
  else { handoff with current := handoff.current.map change }

def map {β : Type} (change : α → β) (handoff : Handoff α) : Handoff β where
  offered := handoff.offered.map change
  pending := handoff.pending.map change
  current := handoff.current.map change
  retired := handoff.retired.map change

end Handoff

end Patchbay
