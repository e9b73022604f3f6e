import Patchbay.Proofs.Render.Monitoring

/-! Delays that fit their lines are not cut.

Rendering asks the monitor for delays and tells it latencies. Where every published
delay fits the line that it is for, all that a block leaves there are reports and
counts of lost events.
-/

set_option autoImplicit false

namespace Patchbay

structure Station.Spans (compensation links : Array Nat) (position : Nat) (station : Station) : Prop where
  outputs : ∀ wait, compensation[position]? = some wait → wait ≤ station.delayCapacity
  lines : ∀ line ∈ station.lines, ∀ rest, links[line.link]? = some rest → rest ≤ line.capacity

/-- A monitor has been told latencies, and no delay was cut. -/
structure Monitor.Told (told : Nat → Nat → Prop) (before after : Monitor) : Prop where
  order : after.order = before.order
  graph : after.graph = before.graph
  compensation : after.latencies.compensation = before.latencies.compensation
  links : after.latencies.links = before.latencies.links
  linkCapacity : after.latencies.linkCapacity = before.latencies.linkCapacity
  clamps : after.clamps = before.clamps
  misaligned : after.misaligned = before.misaligned
  size : after.latencies.intrinsic.size = before.latencies.intrinsic.size
  intrinsic : ∀ (position : Nat) latency, after.latencies.intrinsic[position]? = some latency →
    before.latencies.intrinsic[position]? = some latency ∨ told position latency

namespace Monitor

variable {told : Nat → Nat → Prop}

theorem Told.refl (monitor : Monitor) : Told told monitor monitor :=
  ⟨rfl, rfl, rfl, rfl, rfl, rfl, rfl, rfl, fun _ _ => .inl⟩

theorem Told.trans {before middle after : Monitor} (first : Told told before middle)
    (second : Told told middle after) : Told told before after where
  order := second.order.trans first.order
  graph := second.graph.trans first.graph
  compensation := second.compensation.trans first.compensation
  links := second.links.trans first.links
  linkCapacity := second.linkCapacity.trans first.linkCapacity
  clamps := second.clamps.trans first.clamps
  misaligned := second.misaligned.trans first.misaligned
  size := second.size.trans first.size
  intrinsic position latency found := by
    rcases second.intrinsic position latency found with earlier | new
    · exact first.intrinsic position latency earlier
    · exact .inr new

theorem clampDelay_eq {monitor : Monitor} {wanted capacity : Nat} (fits : wanted ≤ capacity) :
    monitor.clampDelay wanted capacity = (wanted, monitor) := if_neg (by omega)

theorem told_report {monitor : Monitor} {latencies : Latencies} {position samples : Nat} {changed : Bool}
    (answer : monitor.latencies.report position samples = .ok (changed, latencies))
    (allowed : told position samples) : Told told monitor { monitor with latencies } := by
  simp only [Latencies.report, bind_eq_ok, itemAt_eq_ok] at answer
  obtain ⟨old, found, answer⟩ := answer
  split at answer
  · cases answer
    exact .refl monitor
  · simp only [bind_eq_ok, pure_eq_ok, replaceAt_eq_ok, Prod.mk.injEq] at answer
    obtain ⟨_, ⟨inside, rfl⟩, rfl, rfl⟩ := answer
    refine ⟨rfl, rfl, rfl, rfl, rfl, rfl, rfl, Array.size_setIfInBounds, ?_⟩
    intro other latency there
    dsimp only at there
    rw [Array.getElem?_setIfInBounds] at there
    split at there
    · rename_i same
      cases there
      exact .inr (same ▸ allowed)
    · exact .inl there

theorem told_stable (told : Nat → Nat → Prop) (before : Monitor) : Stable told (Told told before) where
  countOverflow _ here := here.trans ⟨rfl, rfl, rfl, rfl, rfl, rfl, rfl, rfl, fun _ _ => .inl⟩
  markFailed _ here := here.trans ⟨rfl, rfl, rfl, rfl, rfl, rfl, rfl, rfl, fun _ _ => .inl⟩
  countBlock here := here.trans ⟨rfl, rfl, rfl, rfl, rfl, rfl, rfl, rfl, fun _ _ => .inl⟩
  report answer allowed here := here.trans (told_report answer allowed)

end Monitor

theorem Station.Spans.stable {told : Nat → Nat → Prop} {before : Monitor} {position : Nat} {station : Station}
    (spans : station.Spans before.latencies.compensation before.latencies.links position) :
    station.Stable (Monitor.Told told before) position where
  line := by
    intro monitor line wanted member published here
    rwa [Monitor.clampDelay_eq (spans.lines line member wanted (here.links ▸ published))]
  outputs := by
    intro monitor wanted published here
    rwa [Monitor.clampDelay_eq (spans.outputs wanted (here.compensation ▸ published))]

/-- Where every delay fits, a block cuts none. That holds of any nodes, whatever they make of their ports. -/
theorem Engine.render_told {ν : Type} [Node ν] (told : Nat → Nat → Prop) {engine rendered : Engine}
    {plan after : Plan ν} {context moved : Context} {calls : List (Call ν)}
    (spans : ∀ (position : Nat) station, plan.layout.stations[position]? = some station → station.Spans
      plan.monitor.latencies.compensation plan.monitor.latencies.links position)
    (answer : engine.render plan context = .ok (calls, rendered, after, moved))
    (reports : ∀ call ∈ calls, call.fails = false → told call.position (Node.latency call.next)) :
    after.layout = plan.layout ∧ plan.monitor.Told told after.monitor := by
  have kept : plan.monitor.Told told after.monitor := render_stable (Monitor.told_stable told plan.monitor)
    (fun position station found => (spans position station found).stable) answer reports (.refl _)
  obtain ⟨_, _, _, _, _, _, _, _, _, _, _, rfl, _⟩ := render_parts answer
  exact ⟨rfl, kept⟩

end Patchbay
