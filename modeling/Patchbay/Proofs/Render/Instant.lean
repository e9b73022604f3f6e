import Patchbay.Proofs.Render.Containment

/-! Plans in which nothing waits.

If no path through a patch has any latency, no line of its plan holds anything,
whatever delays are published. Then a port carries in a block what its node wrote in
that block, and every edge shows what its source carries.
-/

set_option autoImplicit false

namespace Patchbay

variable {ν : Type} [Node ν] {patch : Patch ν} {options : CompileOptions} {placed : List (Placed ν)} {survey : Survey}

def Patch.Instant (patch : Patch ν) : Prop :=
  ∀ id total, patch.Accumulates patch.declared id total → total = 0

namespace Surveyed

variable (surveyed : Surveyed patch placed survey) (instant : patch.Instant)
include surveyed instant

theorem arrival_instant {position : Nat} {place : Placed ν} (item : placed[position]? = some place) :
    survey.worst.arrivalAt position = 0 :=
  instant _ _ (surveyed.worst_arrival item).1

theorem delayCapacity_instant (position : Nat) : survey.delayCapacity position = 0 := by
  by_cases unread : survey.graph.consumersOf position = []
  · simp [Survey.delayCapacity, unread]
  · obtain ⟨consumer, among⟩ := List.exists_mem_of_ne_nil _ unread
    obtain ⟨place, _, item, _⟩ := surveyed.mem_consumersOf.mp among
    have within := Survey.delayCapacity_le among
    rw [surveyed.arrival_instant instant item] at within
    exact Nat.le_zero.mp within

end Surveyed

theorem Stations.lines_instant {stations : List Station} (laid : Stations patch placed survey stations)
    (instant : patch.Instant) {position : Nat} {station : Station} (found : stations[position]? = some station) :
    station.lines = [] := by
  obtain ⟨place, item, stationed⟩ := laid.place_of found
  refine List.eq_nil_iff_forall_not_mem.mpr fun line among => ?_
  obtain ⟨wire, _, needs, _⟩ := stationed.lines.origin line among
  obtain ⟨_, length, room⟩ := Survey.line?_eq_some.mp needs
  rw [Survey.lineCapacity, laid.surveyed.arrival_instant instant item, ite_self] at length
  omega

theorem Takes.instant {format : Format} {clock blockSize lane channels delay lost : Nat} {before after : Array Lane}
    {slots : List (PortType × Nat)} {signal : SignalBuffer} (furnished : format.Furnished slots before)
    (slot : slots[lane]? = some (.audio channels, 0)) (shapes : format.Shapes (.audio channels) signal)
    (takes : Takes clock blockSize before after lane signal delay lost) :
    ∃ item, after[lane]? = some item ∧ item.buffer = signal := by
  obtain ⟨old, next, found, made, applied⟩ := takes
  refine ⟨next, made, ?_⟩
  have holds := furnished.holds slot found
  generalize old.delay = line at holds applied
  cases shapes with
  | audio _ _ =>
    cases holds with
    | @audio _ line _ length _ =>
      simp only [PortDelay.apply, AudioDelayLine.process, if_pos length, ok_bind, pure_eq_ok, Prod.mk.injEq] at applied
      exact applied.2.1.symm

/-! ## Failed nodes -/

theorem Plan.Touched.failed {plan after : Plan ν} (touched : plan.Touched after) :
    after.monitor.failed = plan.monitor.failed := by
  cases touched with
  | adjusted changes => exact changes.failed
  | reset => rfl

theorem Plan.touches_failed {plan after : Plan ν} (touches : Relation.ReflTransGen Plan.Touched plan after) :
    after.monitor.failed = plan.monitor.failed := by
  induction touches with
  | refl => rfl
  | tail _ touched ih => exact touched.failed.trans ih

def Plan.Quiet (format : Format) (plan : Plan ν) : Prop :=
  ∀ (position : Nat) station, plan.layout.stations[position]? = some station →
    plan.monitor.isFailedAt position = true → plan.MutedAt format position station

theorem CompiledFrom.not_failed {plan : Plan ν} (compiled : CompiledFrom patch options placed survey plan)
    (position : Nat) : plan.monitor.isFailedAt position = false := by
  obtain ⟨_, _, _, _, _, assembled⟩ := compiled.assembled
  rw [Monitor.isFailedAt, assembled.failed, Array.getD_eq_getD_getElem?, Array.getElem?_replicate]
  split <;> rfl

theorem CompiledFrom.quiet {plan : Plan ν} (compiled : CompiledFrom patch options placed survey plan) :
    plan.Quiet options.format := by
  intro position station _ failed
  rw [compiled.not_failed position] at failed
  cases failed

theorem Plan.Quiet.touches {format : Format} {plan after : Plan ν} (quiet : plan.Quiet format)
    (touches : Relation.ReflTransGen Plan.Touched plan after) (layout : after.layout = plan.layout) :
    after.Quiet format := by
  intro position station found failed
  rw [Monitor.isFailedAt, Plan.touches_failed touches] at failed
  exact (quiet position station (layout ▸ found) failed).touches touches

/-! ## Blocks -/

/-- What a node wrote to a port in the block; a call that was not done wrote silence. -/
def Block.wrote? (block : Block ν) (id : NodeId) (port : Nat) : Option SignalBuffer := do
  (← block.callAt? (← block.before.monitor.position? id)).written[port]?

namespace Block.Made

variable {block : Block ν} {clock : Nat} {losses : List Nat}
  (before : block.before.Serves patch options placed survey) (made : block.Made options.format clock losses)
include before made

theorem quiet (quiet : block.before.Quiet options.format) : block.after.Quiet options.format := by
  intro position station found failed
  rw [made.2.layout] at found
  cases already : block.before.monitor.isFailedAt position with
  | true => exact made.muted before found (quiet position station found already)
  | false =>
    rw [made.2.monitor.failed, already, Bool.false_or, List.any_eq_true] at failed
    obtain ⟨call, member, fails⟩ := failed
    simp only [Bool.and_eq_true, decide_eq_true_eq] at fails
    obtain ⟨rfl, fails⟩ := fails
    exact made.mutes member found fails

theorem wrote?_eq {call : Call ν} {place : Placed ν} (member : call ∈ block.calls)
    (item : placed[call.position]? = some place) (port : Nat) :
    block.wrote? place.id port = call.written[port]? := by
  simp only [wrote?, before.position?_eq item, made.callAt?_eq member, Option.bind_eq_bind, Option.bind_some]

/-- Where nothing waits, an audio port carries what was written to it, and silence if
its node has failed. -/
theorem output_instant (instant : patch.Instant) (quiet : block.before.Quiet options.format)
    {position port channels : Nat} {place : Placed ν} (item : placed[position]? = some place) {spec : PortSpec}
    (output : patch.OutputAt place.id port spec) (audio : spec.type = .audio channels) :
    block.after.output? place.id port =
      some ((block.wrote? place.id port).getD (options.format.silence (.audio channels))) := by
  obtain ⟨station, found, stationed⟩ := before.stations.stationed item
  have typed : station.outputs[port]? = some (.audio channels) :=
    (before.stations.output_iff item found).mpr ⟨spec, output, audio⟩
  obtain ⟨lane, atLane, shows⟩ := (before.rendered made.2).output?_eq item (made.2.layout ▸ found)
    (List.getElem?_eq_some_iff.mp typed).1
  rw [shows, Option.some.injEq]
  -- A node that had failed is not called, so its lanes stay silent.
  cases failed : block.before.monitor.isFailedAt position with
  | true =>
    have high : station.base + port < station.stop :=
      Nat.add_lt_add_left (List.getElem?_eq_some_iff.mp typed).1 _
    obtain ⟨old, there, silent⟩ := (quiet position station found failed).silent typed
    rw [made.untouched before found failed (by omega) high, there] at atLane
    cases atLane
    simp only [wrote?, before.position?_eq item, made.callAt?_eq_none failed, Option.bind_eq_bind, Option.bind_some,
      Option.bind_none, Option.getD_none, silent]
  | false =>
    obtain ⟨call, member, rfl⟩ := made.exists_call found failed
    obtain ⟨_, visit⟩ := made.visit member found
    obtain ⟨_, _, _, emits, _⟩ := visit.traffic
    have inside : port < call.written.size := by
      rw [visit.written.size]
      exact (List.getElem?_eq_some_iff.mp typed).1
    have signal := Array.getElem?_eq_getElem inside
    rw [made.wrote?_eq before member item, signal, Option.getD_some]
    -- A node that fails now leaves what it wrote; any other sends it through a line without length.
    cases runs : call.fails with
    | true =>
      cases emits with
      | delayed runs' => rw [runs] at runs'; cases runs'
      | failed _ stored =>
        obtain ⟨_, _, after⟩ := stored (call.written[port], station.base + port)
          (mem_zipIdx_toList.mpr ⟨port, signal, rfl⟩)
        rw [atLane] at after
        exact congrArg Lane.buffer (Option.some.inj after)
    | false =>
      obtain ⟨_, _, _, signal', shapes, _, takes⟩ := made.output_takes member found runs typed
      rw [signal] at signal'
      cases signal'
      have slot := (before.ready.sound.slotted station (List.mem_of_getElem? found)).outputs typed
      rw [stationed.delayCapacity, before.stations.surveyed.delayCapacity_instant instant] at slot
      obtain ⟨_, there, same⟩ := takes.instant before.ready.furnished slot shapes
      rw [atLane] at there
      cases there
      exact same

theorem shown_instant (instant : patch.Instant) {call : Call ν} {place : Placed ν} (member : call ∈ block.calls)
    (item : placed[call.position]? = some place) (port : Nat) :
    List.Forall₂ (fun entry source => source.gain = entry.2.gain ∧
      block.after.output? entry.2.source entry.2.sourcePort = some source.buffer)
      (patch.edgesInto place.id port) (call.ports.inputs.sources port) := by
  obtain ⟨station, found, _⟩ := before.stations.stationed item
  obtain ⟨_, visit⟩ := made.visit member found
  refine (before.stations.shown item found visit.shown port).imp ?_
  rintro entry source ⟨dest, producer, type, feed, routed, _, shown⟩
  have shows := made.shows before (before.rendered made.2) item dest found visit routed shown
  obtain ⟨signal, output, shared, _⟩ := shows.produced
  refine ⟨shows.gain, ?_⟩
  cases routed.reads with
  | shared same _ => rw [output, shared same]
  | own _ _ among =>
    rw [before.stations.lines_instant instant found] at among
    cases among

end Block.Made

theorem Run.quiet {first last : Plan ν} {blocks : List (Block ν)}
    (run : Run (Relation.ReflTransGen Plan.Touched) first blocks last)
    (serves : first.Serves patch options placed survey)
    (orderly : ∀ block ∈ blocks, ∀ call ∈ block.calls, call.Orderly options.format)
    (quiet : first.Quiet options.format) : ∀ block ∈ blocks, block.before.Quiet options.format := by
  obtain ⟨_, all⟩ := @Run.invariant _ _ _ _ _ _ _ _ _ _ (·.Quiet options.format) run id serves orderly quiet
    (fun _ _ touches layout quiet => quiet.touches touches layout)
    fun _ _ _ before _ made quiet => made.quiet before quiet
  exact fun block member => (all block member).1

end Patchbay
