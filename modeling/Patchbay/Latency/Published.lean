import Patchbay.Latency.Alignment

/-! The published latencies of a plan: what the nodes reported, and the delays
that the renderer applies.

Reporting a changed latency marks the state as out of date; a refresh aligns
the graph anew from what was reported and publishes the result.
-/

set_option autoImplicit false

namespace Patchbay

/-- Nodes are indexed by render position, links by their number. -/
structure Latencies where
  intrinsic : Array Nat
  compensation : Array Nat
  links : Array Nat
  /-- The longest delay each link can apply; zero where it has no line. -/
  linkCapacity : Array Nat
  /-- A latency changed since the last refresh. -/
  dirty : Bool
  deriving DecidableEq

structure RefreshReport where
  /-- The number of node and link delays that changed. -/
  changed : Nat
  /-- The number of links whose remaining delay does not fit their line. -/
  misaligned : Nat
  maxCompensation : Nat
  deriving DecidableEq

/-- The number of links that ask for more delay than they can apply. -/
def countMisaligned (links capacity : Array Nat) : Nat :=
  (links.zip capacity).countP fun (delay, room) => room < delay

def countChanged (before after : Array Nat) : Nat :=
  (before.zip after).countP fun (old, new) => old ≠ new

def replaceAt {α : Type} (items : Array α) (position : Nat) (item : α) : Checked (Array α) :=
  if h : position < items.size then .ok (items.set position item h) else .error .outOfRange

namespace Latencies

def report (state : Latencies) (position samples : Nat) : Checked (Bool × Latencies) := do
  if (← itemAt state.intrinsic position) = samples then
    return (false, state)
  else
    let intrinsic ← replaceAt state.intrinsic position samples
    return (true, { state with intrinsic, dirty := true })

def publish (state : Latencies) (position samples : Nat) : Checked Latencies := do
  return { state with compensation := ← replaceAt state.compensation position samples }

def publishLink (state : Latencies) (link samples : Nat) : Checked Latencies := do
  return { state with links := ← replaceAt state.links link samples }

def refresh (state : Latencies) (graph : LatencyGraph) : Checked (RefreshReport × Latencies) := do
  let result ← graph.align state.intrinsic
  let report := {
    changed := countChanged state.compensation result.values + countChanged state.links result.links
    misaligned := countMisaligned result.links state.linkCapacity
    maxCompensation := result.maxValue }
  return (report, { state with compensation := result.values, links := result.links })

end Latencies

end Patchbay
