import Patchbay.Patch.Basic

/-! The render order of a patch.

A slot is ready once no edge leads into it from a slot without a place. Of the slots
that are ready the lowest goes first, so the order depends only on which nodes there
are and on which of them feed which.
-/

set_option autoImplicit false

namespace Patchbay

namespace RenderOrder

def enqueue (slot : Nat) : List Nat → List Nat
  | [] => [slot]
  | first :: rest => if slot ≤ first then slot :: first :: rest else first :: enqueue slot rest

/-- How far an order has come: how many edges still have to be followed into each slot,
the slots that are ready, lowest first, and those that are placed. -/
structure Progress where
  degrees : Array Nat
  ready : List Nat
  placed : List Nat

def Progress.follow (progress : Progress) (dest : Nat) : Progress :=
  let degree := progress.degrees.getD dest 0 - 1
  { progress with
    degrees := progress.degrees.setIfInBounds dest degree
    ready := if degree = 0 then enqueue dest progress.ready else progress.ready }

def Progress.run (outgoing : Nat → List Nat) : (rounds : Nat) → Progress → Progress
  | 0, progress => progress
  | rounds + 1, progress =>
      match progress.ready with
      | [] => progress
      | slot :: rest =>
          let placing := { progress with ready := rest, placed := progress.placed ++ [slot] }
          run outgoing rounds ((outgoing slot).foldl follow placing)

end RenderOrder

namespace Patch

variable {ν : Type}

def across (patch : Patch ν) (here there : Edge → NodeId) (slot : Nat) : List Nat :=
  (patch.liveEdges.filter fun (_, edge) => (here edge).index = slot).map fun (_, edge) => (there edge).index

def feeders (patch : Patch ν) : Nat → List Nat := patch.across (·.dest) (·.source)

def outgoing (patch : Patch ν) : Nat → List Nat := patch.across (·.source) (·.dest)

def liveSlots (patch : Patch ν) : List Nat := patch.liveNodes.map fun (id, _) => id.index

def startOrder (patch : Patch ν) : RenderOrder.Progress :=
  let degrees := (Array.range patch.nodes.size).map fun slot => (patch.feeders slot).length
  { degrees, ready := patch.liveSlots.filter fun slot => degrees.getD slot 0 = 0, placed := [] }

/-- The progress after the last round. No slot is placed twice, so as many rounds as
slots suffice. -/
def finishOrder (patch : Patch ν) : RenderOrder.Progress :=
  let outgoing := (Array.range patch.nodes.size).map patch.outgoing
  patch.startOrder.run (outgoing.getD · []) patch.liveSlots.length

/-- The render order, or the lowest slot that cannot be placed because it lies on
a cycle or behind one. -/
def renderOrder (patch : Patch ν) : Except NodeId (List Nat) :=
  let slots := patch.liveSlots
  let last := patch.finishOrder
  if last.placed.length < slots.length then
    .error ⟨(slots.find? fun slot => 0 < last.degrees.getD slot 0).getD 0⟩
  else .ok last.placed

end Patch

end Patchbay
