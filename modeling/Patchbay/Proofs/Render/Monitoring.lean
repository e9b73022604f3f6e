import Patchbay.Proofs.Render.Block

/-! What a block makes of the monitor.

A block counts, marks and reports to the monitor and does nothing else to it. So a
property that these leave is left by the block, whatever its nodes make of their ports.
-/

set_option autoImplicit false

namespace Patchbay

variable {ν : Type} {allowed : Nat → Nat → Prop} {holds : Monitor → Prop}

/-- Counts and marks leave the property, and so do reports of allowed latencies. -/
structure Monitor.Stable (allowed : Nat → Nat → Prop) (holds : Monitor → Prop) : Prop where
  countOverflow : ∀ {monitor} events, holds monitor → holds (monitor.countOverflow events)
  markFailed : ∀ {monitor} position, holds monitor → holds (monitor.markFailed position)
  countBlock : ∀ {monitor}, holds monitor → holds monitor.countBlock
  report : ∀ {monitor position samples changed latencies},
    monitor.latencies.report position samples = .ok (changed, latencies) → allowed position samples →
      holds monitor → holds { monitor with latencies }

structure Station.Stable (holds : Monitor → Prop) (position : Nat) (station : Station) : Prop where
  line : ∀ {monitor} {line : RouteLine} {wanted}, line ∈ station.lines →
    monitor.latencies.links[line.link]? = some wanted → holds monitor → holds (monitor.clampDelay wanted line.capacity).2
  outputs : ∀ {monitor wanted}, monitor.latencies.compensation[position]? = some wanted → holds monitor →
    holds (monitor.clampDelay wanted station.delayCapacity).2

theorem Station.stable_of_clamps {position : Nat} {station : Station}
    (clamps : ∀ {monitor} count, holds monitor → holds { monitor with clamps := count }) :
    station.Stable holds position := by
  have all : ∀ {monitor : Monitor} wanted capacity, holds monitor → holds (monitor.clampDelay wanted capacity).2 := by
    intro monitor wanted capacity here
    unfold Monitor.clampDelay
    split
    · exact clamps _ here
    · exact here
  exact ⟨fun _ _ => all _ _, fun _ => all _ _⟩

namespace Progress

variable {clock blockSize position : Nat} {context : Context} {station : Station} {state next : Progress ν}

theorem fillLine_stable (stable : Monitor.Stable allowed holds) (asks : station.Stable holds position) {line : RouteLine}
    (member : line ∈ station.lines) (answer : state.fillLine clock blockSize line = .ok next)
    (here : holds state.monitor) : holds next.monitor := by
  simp only [fillLine, bind_eq_ok, itemAt_eq_ok] at answer
  obtain ⟨wanted, published, _, _, answer⟩ := answer
  split at answer
  · cases answer
  simp only [bind_eq_ok, pure_eq_ok, Prod.exists] at answer
  obtain ⟨_, _, _, _, _, _, _, _, _, rfl⟩ := answer
  exact stable.countOverflow _ (asks.line member published here)

theorem delayLanes_stable (stable : Monitor.Stable allowed holds) {delay lane count : Nat}
    (answer : delayLanes delay clock blockSize lane count state = .ok next) (here : holds state.monitor) :
    holds next.monitor := by
  induction count generalizing lane state with
  | zero =>
    cases answer
    exact here
  | succ count ih =>
    simp only [delayLanes, bind_eq_ok, Prod.exists] at answer
    obtain ⟨_, _, _, _, _, _, answer⟩ := answer
    exact ih answer (stable.countOverflow _ here)

variable [Node ν]

theorem runStation_stable (stable : Monitor.Stable allowed holds) (asks : station.Stable holds position) {call : Call ν}
    (answer : state.runStation context clock blockSize position station = .ok (call, next))
    (reports : call.fails = false → allowed position (Node.latency call.next)) (here : holds state.monitor) :
    holds next.monitor := by
  simp only [runStation, arrange, bind_eq_ok, pure_eq_ok, Prod.exists, Prod.mk.injEq] at answer
  obtain ⟨_, _, _, ⟨filled, lines, _, _, _, _, _, _, _, _, rfl⟩, _, _, _, _, answer⟩ := answer
  have arranged : holds filled.monitor := foldlM_keeps (fun later => holds later.monitor)
    (fun member here filled => fillLine_stable stable asks member filled here) here lines
  have collected : ∀ call : Call ν, holds (filled.collect station call).monitor :=
    fun _ => stable.countOverflow _ arranged
  split at answer
  · simp only [pure_eq_ok, Prod.mk.injEq] at answer
    obtain ⟨_, rfl⟩ := answer
    exact stable.markFailed position (collected _)
  · rename_i runs
    simp only [bind_eq_ok, pure_eq_ok, Prod.mk.injEq, finish, itemAt_eq_ok, Prod.exists] at answer
    obtain ⟨_, ⟨wanted, published, middle, delayed, _, latencies, reported, rfl⟩, rfl, rfl⟩ := answer
    have delays := delayLanes_stable stable delayed (asks.outputs published (collected _))
    exact stable.report reported (reports (by simpa using runs)) delays

theorem runFrom_stable (stable : Monitor.Stable allowed holds) {stations : List Station} {calls : List (Call ν)}
    (asks : ∀ (index : Nat) station, stations[index]? = some station → station.Stable holds (position + index))
    (answer : runFrom context clock blockSize position stations state = .ok (calls, next))
    (reports : ∀ call ∈ calls, call.fails = false → allowed call.position (Node.latency call.next))
    (here : holds state.monitor) : holds next.monitor := by
  induction stations generalizing position state calls with
  | nil =>
    cases answer
    exact here
  | cons station rest ih =>
    have later : ∀ (index : Nat) other, rest[index]? = some other → other.Stable holds (position + 1 + index) := by
      intro index other found
      rw [Nat.add_assoc, Nat.add_comm 1]
      exact asks (index + 1) other found
    rcases runFrom_cons_eq_ok.mp answer with ⟨_, answer⟩ | ⟨_, call, middle, others, ran, passed, rfl⟩
    · exact ih later answer reports here
    · have place : call.position = position := (runStation_parts ran).1
      refine ih later passed (fun other member => reports other (List.mem_cons_of_mem call member)) ?_
      exact runStation_stable stable (asks 0 station rfl) ran
        (fun runs => place ▸ reports call List.mem_cons_self runs) here

end Progress

/-- What the monitor's own steps leave, a block leaves. -/
theorem Engine.render_stable [Node ν] (stable : Monitor.Stable allowed holds) {engine rendered : Engine}
    {plan after : Plan ν} {context moved : Context} {calls : List (Call ν)}
    (asks : ∀ (position : Nat) station, plan.layout.stations[position]? = some station → station.Stable holds position)
    (answer : engine.render plan context = .ok (calls, rendered, after, moved))
    (reports : ∀ call ∈ calls, call.fails = false → allowed call.position (Node.latency call.next))
    (here : holds plan.monitor) : holds after.monitor := by
  obtain ⟨_, _, state, _, _, _, _, passed, _, _, _, rfl, _⟩ := render_parts answer
  refine stable.countBlock (Progress.runFrom_stable stable (fun index station found => ?_) passed reports here)
  rw [Nat.zero_add]
  exact asks index station found

theorem Engine.render_keeps [Node ν] (stable : Monitor.Stable (fun _ _ => True) holds)
    (clamps : ∀ {monitor} count, holds monitor → holds { monitor with clamps := count }) {engine rendered : Engine}
    {plan after : Plan ν} {context moved : Context} {calls : List (Call ν)}
    (answer : engine.render plan context = .ok (calls, rendered, after, moved)) (here : holds plan.monitor) :
    holds after.monitor :=
  render_stable stable (fun _ _ _ => Station.stable_of_clamps clamps) answer (fun _ _ _ => trivial) here

/-! ## What stays in use -/

namespace Monitor

def frame (monitor : Monitor) : List NodeId × LatencyGraph × Nat :=
  (monitor.order, monitor.graph, monitor.latencies.intrinsic.size)

theorem frame_report {monitor : Monitor} {position samples : Nat} {changed : Bool} {latencies : Latencies}
    (answer : monitor.latencies.report position samples = .ok (changed, latencies)) :
    ({ monitor with latencies } : Monitor).frame = monitor.frame := by
  simp [frame, Latencies.report_spec answer]

theorem frame_stable (before : Monitor) : Stable (fun _ _ => True) (·.frame = before.frame) where
  countOverflow _ here := here
  markFailed _ here := here
  countBlock here := here
  report answer _ here := (frame_report answer).trans here

end Monitor

theorem Engine.render_frame [Node ν] {engine rendered : Engine} {plan after : Plan ν} {context moved : Context}
    {calls : List (Call ν)} (answer : engine.render plan context = .ok (calls, rendered, after, moved)) :
    after.monitor.frame = plan.monitor.frame :=
  render_keeps (Monitor.frame_stable plan.monitor) (fun _ here => here) answer rfl

end Patchbay
