import Patchbay.Proofs.Render.Monitoring
import Patchbay.Proofs.Render.Reads

/-! Failed nodes are silent, whatever nodes do.

A node may leave any signals in the places of its outputs. As long as it leaves as many as
it was given, it reaches no lane of another node, so the lanes of a failed node stay cleared.
-/

set_option autoImplicit false

namespace Patchbay

variable {ν : Type}

theorem SignalBuffer.isSilent_clear (buffer : SignalBuffer) : buffer.clear.isSilent = true := by
  cases buffer with
  | audio block =>
    have zero : (0 : Sample).isZero = true := by decide
    exact Array.all_eq_true.mpr fun place inside => by simp [AudioBuffer.clear, AudioBuffer.fill, zero]
  | midi | control | trigger => rfl

def Station.Hushed (lanes : Array Lane) (station : Station) : Prop :=
  ∀ lane item, station.base ≤ lane → lane < station.stop → lanes[lane]? = some item → item.buffer.isSilent = true

theorem Station.Hushed.congr {before after : Array Lane} {station : Station} (hushed : station.Hushed before)
    (same : ∀ lane, station.base ≤ lane → lane < station.stop → after[lane]? = before[lane]?) :
    station.Hushed after :=
  fun lane item low high found => hushed lane item low high (same lane low high ▸ found)

/-- Of the stations from a position on, the one at a place may be this one, and the lanes of
all others are not those of its outputs. -/
def Station.Among (station : Station) (place position : Nat) (stations : List Station) : Prop :=
  ∀ (index : Nat) other, stations[index]? = some other → ∃ start, other.Numbers start ∧
    (position + index = place ∧ other = station ∨
      position + index ≠ place ∧ (other.stop ≤ station.base ∨ station.stop ≤ start))

theorem Station.Among.tail {station first : Station} {place position : Nat} {later : List Station}
    (among : station.Among place position (first :: later)) : station.Among place (position + 1) later := by
  intro index other found
  rw [Nat.add_right_comm]
  exact among (index + 1) other found

namespace Monitor

theorem marked_stable (position : Nat) : Stable (fun _ _ => True) (·.isFailedAt position = true) where
  countOverflow _ here := here
  markFailed other here := by
    simp only [isFailedAt, markFailed, Array.getD_eq_getD_getElem?, Array.getElem?_setIfInBounds] at here ⊢
    split
    · rename_i same
      split <;> simp_all
    · exact here
  countBlock here := here
  report _ _ here := here

theorem marks_stable (count : Nat) : Stable (fun _ _ => True) (·.failed.size = count) where
  countOverflow _ here := here
  markFailed _ here := Array.size_setIfInBounds.trans here
  countBlock here := here
  report _ _ here := here

theorem markFailed_marks {monitor : Monitor} {position : Nat} (room : position < monitor.failed.size) :
    (monitor.markFailed position).isFailedAt position = true := by
  simp [isFailedAt, markFailed, room]

end Monitor

/-- The node left as many outputs as it was given. -/
def Call.Complete (call : Call ν) : Prop := call.reply.outputs.size = call.ports.outputs.size

theorem Ports.Accesses.outputs_size {before after : Ports} (uses : before.Accesses after) :
    after.outputs.size = before.outputs.size := by
  induction uses with
  | refl => rfl
  | tail _ use ih =>
    rw [← ih]
    cases use with
    | audioIn | midiIn | triggersIn => rfl
    | audioOut | midiOut | triggersOut => exact Array.size_setIfInBounds
    | controlOut =>
      unfold setControl
      split
      · exact Array.size_setIfInBounds
      · rfl

theorem Call.Typed.complete {call : Call ν} (typed : call.Typed) : call.Complete := typed.outputs_size

theorem Call.mem_written (call : Call ν) (fails : call.fails = true) {signal : SignalBuffer}
    (member : signal ∈ call.written) : ∃ left ∈ call.reply.outputs, signal = left.clear := by
  unfold written at member
  unfold Call.fails at fails
  split at member
  · rename_i done
    simp [done] at fails
  · obtain ⟨left, among, rfl⟩ := Array.mem_map.mp member
    exact ⟨left, among, rfl⟩

namespace Progress

variable {clock blockSize position start : Nat} {context : Context} {station : Station} {state next : Progress ν}

theorem fillLine_outside {line : RouteLine} (answer : state.fillLine clock blockSize line = .ok next) :
    SameOutside line.lane (line.lane + 1) state.lanes next.lanes := by
  simp only [fillLine, bind_eq_ok] at answer
  obtain ⟨_, _, _, _, answer⟩ := answer
  split at answer
  · cases answer
  simp only [bind_eq_ok, pure_eq_ok, Prod.exists] at answer
  obtain ⟨_, _, _, _, _, _, _, _, _, rfl⟩ := answer
  exact sameOutside_set ..

theorem delayLanes_outside {delay lane count : Nat}
    (answer : delayLanes delay clock blockSize lane count state = .ok next) :
    SameOutside lane (lane + count) state.lanes next.lanes := by
  induction count generalizing lane state with
  | zero =>
    cases answer
    exact .refl ..
  | succ count ih =>
    simp only [delayLanes, bind_eq_ok, Prod.exists] at answer
    obtain ⟨_, _, _, _, _, _, answer⟩ := answer
    exact ((sameOutside_set ..).trans (ih answer)).widen (by omega) (by omega)

theorem arrange_outside (numbers : station.Numbers start) {node : ν} {ports : Ports} {ready : Progress ν}
    (answer : state.arrange clock blockSize position station = .ok (node, ports, ready)) :
    SameOutside start station.base state.lanes ready.lanes ∧ station.stop ≤ ready.lanes.size ∧
      ports.outputs.size = station.outputs.length := by
  simp only [arrange, bind_eq_ok, pure_eq_ok, Prod.mk.injEq] at answer
  obtain ⟨filled, lines, _, _, blank, blanked, _, _, rfl, rfl, rfl⟩ := answer
  have outside : SameOutside start station.base state.lanes filled.lanes := by
    refine foldlM_keeps (SameOutside start station.base state.lanes ·.lanes) (fun member same filled => ?_)
      (.refl ..) lines
    obtain ⟨_, low, high⟩ := numbers.line_lt _ member
    exact (same.trans (fillLine_outside filled)).widen (by omega) (by omega)
  unfold blankOutputs at blanked
  split at blanked
  · cases blanked
  · rename_i room
    cases blanked
    have size : station.stop = station.base + station.outputs.length := rfl
    exact ⟨outside, by omega, by simp only [Array.size_map, Array.size_extract]; omega⟩

variable [Node ν] {call : Call ν}

theorem runStation_outside (numbers : station.Numbers start) (complete : call.Complete)
    (answer : state.runStation context clock blockSize position station = .ok (call, next)) :
    SameOutside start station.stop state.lanes next.lanes ∧ (call.fails = true → station.Hushed next.lanes) := by
  obtain ⟨-, ready, arranged, -, ends⟩ := runStation_parts answer
  obtain ⟨filled, room, given⟩ := arrange_outside numbers arranged
  have written : call.written.toList.length = station.outputs.length := by
    rw [Array.length_toList, ← given, ← complete]
    unfold Call.written
    split <;> simp
  have stop : station.stop = station.base + call.written.toList.length := by rw [written]; rfl
  have stored : SameOutside station.base station.stop ready.lanes (ready.collect station call).lanes :=
    stop ▸ store_outside ..
  have base := numbers.base
  have both : SameOutside start station.stop state.lanes (ready.collect station call).lanes :=
    (filled.trans stored).widen (by omega) (by omega)
  rcases ends with ⟨fails, rfl⟩ | ⟨runs, finished⟩
  · refine ⟨both, fun _ => ?_⟩
    rintro lane item low high found
    have inside : lane - station.base < call.written.size := by
      rw [← Array.length_toList]
      omega
    obtain ⟨_, _, after⟩ := store_stored ready.lanes station.base call.written.toList (stop ▸ room)
      (call.written[lane - station.base], lane) (mem_zipIdx_toList.mpr
        ⟨lane - station.base, Array.getElem?_eq_getElem inside, by omega⟩)
    obtain rfl := Option.some.inj (found.symm.trans after)
    obtain ⟨signal, _, cleared⟩ := call.mem_written fails (Array.getElem_mem inside)
    rw [cleared]
    exact signal.isSilent_clear
  · refine ⟨?_, fun fails => absurd (runs.symm.trans fails) Bool.false_ne_true⟩
    simp only [finish, bind_eq_ok, pure_eq_ok, Prod.exists] at finished
    obtain ⟨_, _, middle, delayed, _, _, _, rfl⟩ := finished
    have delays := delayLanes_outside delayed
    have moved : SameOutside start station.stop state.lanes middle.lanes :=
      (both.trans delays).widen (by omega) (by omega)
    exact moved

variable {place : Nat} {stations : List Station} {calls : List (Call ν)}

theorem runStation_marked (answer : state.runStation context clock blockSize position station = .ok (call, next))
    (fails : call.fails = true) (room : position < state.monitor.failed.size) :
    next.monitor.isFailedAt position = true := by
  have size : next.monitor.failed.size = state.monitor.failed.size :=
    runStation_stable (Monitor.marks_stable _) (Station.stable_of_clamps fun _ here => here) answer
      (fun _ => trivial) rfl
  obtain ⟨-, ready, -, -, ⟨-, rfl⟩ | ⟨runs, -⟩⟩ := runStation_parts answer
  · refine Monitor.markFailed_marks (room.trans_eq ?_)
    exact size.symm.trans Array.size_setIfInBounds
  · cases runs.symm.trans fails

theorem runFrom_hushed (among : station.Among place position stations) (complete : ∀ call ∈ calls, call.Complete)
    (answer : runFrom context clock blockSize position stations state = .ok (calls, next))
    (failed : state.monitor.isFailedAt place = true) (hushed : station.Hushed state.lanes) :
    station.Hushed next.lanes ∧ ∀ call ∈ calls, call.position ≠ place := by
  induction stations generalizing position state calls with
  | nil =>
    cases answer
    exact ⟨hushed, by simp⟩
  | cons first later ih =>
    rcases runFrom_cons_eq_ok.mp answer with ⟨_, answer⟩ | ⟨alive, call, middle, others, ran, passed, rfl⟩
    · exact ih among.tail complete answer failed hushed
    · obtain ⟨start, numbers, apart⟩ := among 0 first rfl
      obtain ⟨here, others⟩ := List.forall_mem_cons.mp complete
      have differs : position ≠ place := fun same => Bool.false_ne_true (alive.symm.trans (same ▸ failed))
      obtain ⟨outside, _⟩ := runStation_outside numbers here ran
      obtain ⟨still, uncalled⟩ := ih among.tail others passed
        (runStation_stable (Monitor.marked_stable place) (Station.stable_of_clamps fun _ here => here) ran
          (fun _ => trivial) failed)
        (hushed.congr fun lane low high => outside.same (by omega))
      exact ⟨still, List.forall_mem_cons.mpr ⟨(runStation_parts ran).1 ▸ differs, uncalled⟩⟩

theorem runFrom_hushes (among : station.Among place position stations) (complete : ∀ call ∈ calls, call.Complete)
    (answer : runFrom context clock blockSize position stations state = .ok (calls, next)) (member : call ∈ calls)
    (fails : call.fails = true) (here : call.position = place) (room : place < state.monitor.failed.size) :
    station.Hushed next.lanes ∧ next.monitor.isFailedAt place = true := by
  induction stations generalizing position state calls with
  | nil =>
    cases answer
    cases member
  | cons first later ih =>
    rcases runFrom_cons_eq_ok.mp answer with ⟨_, answer⟩ | ⟨_, visited, middle, others, ran, passed, rfl⟩
    · exact ih among.tail complete answer member room
    · obtain ⟨start, numbers, apart⟩ := among 0 first rfl
      obtain ⟨whole, others⟩ := List.forall_mem_cons.mp complete
      rcases List.mem_cons.mp member with rfl | member
      · obtain rfl : position = place := (runStation_parts ran).1.symm.trans here
        rcases apart with ⟨_, rfl⟩ | ⟨elsewhere, _⟩
        · have marked := runStation_marked ran fails room
          obtain ⟨hushed, _⟩ := runFrom_hushed among.tail others passed marked
            ((runStation_outside numbers whole ran).2 fails)
          exact ⟨hushed, runFrom_stable (Monitor.marked_stable _)
            (fun _ _ _ => Station.stable_of_clamps fun _ here => here) passed (fun _ _ _ => trivial) marked⟩
        · exact absurd rfl elsewhere
      · refine ih among.tail others passed member (room.trans_eq ?_)
        exact (runStation_stable (Monitor.marks_stable state.monitor.failed.size)
          (Station.stable_of_clamps fun _ here => here) ran (fun _ => trivial) rfl).symm

end Progress

/-! ## Plans -/

variable [Node ν] {patch : Patch ν} {placed : List (Placed ν)} {survey : Survey} {plan after first last : Plan ν}
  {place : Nat} {station : Station} {blocks : List (Block ν)}

theorem Stations.among {stations : List Station} (laid : Stations patch placed survey stations)
    (found : stations[place]? = some station) : station.Among place 0 stations := by
  intro index other there
  obtain ⟨start, _, numbers, _⟩ := laid.numbered.exists_start List.drop_zero (List.mem_of_getElem? there)
  have base := numbers.base
  refine ⟨start, numbers, ?_⟩
  rw [Nat.zero_add]
  rcases Nat.lt_trichotomy index place with less | rfl | more
  · have := laid.apart there found less
    exact .inr ⟨less.ne, .inl (by omega)⟩
  · exact .inl ⟨rfl, Option.some.inj (there.symm.trans found)⟩
  · have := laid.apart found there more
    exact .inr ⟨more.ne', .inr (by omega)⟩

/-- The layout, the order and the links are as before, and there are as many marks. -/
structure Plan.Retains (plan after : Plan ν) : Prop where
  layout : after.layout = plan.layout
  order : after.monitor.order = plan.monitor.order
  graph : after.monitor.graph = plan.monitor.graph
  marks : after.monitor.failed.size = plan.monitor.failed.size

namespace Plan.Retains

omit [Node ν] in
theorem refl (plan : Plan ν) : plan.Retains plan := ⟨rfl, rfl, rfl, rfl⟩

omit [Node ν] in
theorem trans {middle : Plan ν} (retains : plan.Retains middle) (later : middle.Retains after) : plan.Retains after :=
  ⟨later.layout.trans retains.layout, later.order.trans retains.order, later.graph.trans retains.graph,
    later.marks.trans retains.marks⟩

theorem charts (retains : plan.Retains after) (charts : plan.Charts patch placed survey) :
    after.Charts patch placed survey :=
  ⟨retains.layout ▸ charts.stations, retains.order.trans charts.order, retains.graph.trans charts.graph⟩

theorem touched (touched : plan.Touched after) : plan.Retains after := by
  cases touched with
  | adjusted changes => exact ⟨changes.layout, changes.order, changes.graph, congrArg Array.size changes.failed⟩
  | reset => exact ⟨rfl, rfl, rfl, rfl⟩

theorem touches (touches : Relation.ReflTransGen Plan.Touched plan after) : plan.Retains after := by
  induction touches with
  | refl => exact refl plan
  | tail _ step ih => exact ih.trans (touched step)

theorem rendered {engine rendered : Engine} {context moved : Context} {calls : List (Call ν)}
    (answer : engine.render plan context = .ok (calls, rendered, after, moved)) : plan.Retains after := by
  have marks := Engine.render_keeps (Monitor.marks_stable plan.monitor.failed.size) (fun _ here => here) answer rfl
  have frame := Engine.render_frame answer
  simp only [Monitor.frame, Prod.mk.injEq] at frame
  obtain ⟨_, _, _, _, _, _, _, _, _, _, _, rfl, _⟩ := Engine.render_parts answer
  exact ⟨rfl, frame.1, frame.2.1, marks⟩

theorem run (run : Run (Relation.ReflTransGen Plan.Touched) first blocks last) : first.Retains last := by
  induction run with
  | start => exact refl first
  | render _ changes renders ih => exact ih.trans ((touches changes).trans (rendered renders))

end Plan.Retains

structure Plan.HushedAt (plan : Plan ν) (place : Nat) (station : Station) : Prop where
  failed : plan.monitor.isFailedAt place = true
  hushed : station.Hushed plan.lanes

namespace Plan.HushedAt

theorem touches (hushed : plan.HushedAt place station) (touches : Relation.ReflTransGen Plan.Touched plan after) :
    after.HushedAt place station := by
  induction touches with
  | refl => exact hushed
  | tail _ touched ih =>
    cases touched with
    | adjusted changes =>
      refine ⟨?_, changes.lanes ▸ ih.hushed⟩
      rw [Monitor.isFailedAt, changes.failed]
      exact ih.failed
    | reset =>
      refine ⟨ih.failed, fun lane item low high found => ?_⟩
      simp only [reset, Array.getElem?_map, Option.map_eq_some_iff] at found
      obtain ⟨old, _, rfl⟩ := found
      exact old.buffer.isSilent_clear

theorem rendered {engine rendered : Engine} {context moved : Context} {calls : List (Call ν)}
    (hushed : plan.HushedAt place station) (charts : plan.Charts patch placed survey)
    (found : plan.layout.stations[place]? = some station) (complete : ∀ call ∈ calls, call.Complete)
    (answer : engine.render plan context = .ok (calls, rendered, after, moved)) :
    after.HushedAt place station ∧ ∀ call ∈ calls, call.position ≠ place := by
  have marked := Engine.render_keeps (Monitor.marked_stable place) (fun _ here => here) answer hushed.failed
  obtain ⟨_, _, state, _, _, _, _, passed, _, _, _, rfl, _⟩ := Engine.render_parts answer
  obtain ⟨still, uncalled⟩ :=
    Progress.runFrom_hushed (charts.stations.among found) complete passed hushed.failed hushed.hushed
  exact ⟨⟨marked, still⟩, uncalled⟩

theorem run (hushed : first.HushedAt place station) (charts : first.Charts patch placed survey)
    (found : first.layout.stations[place]? = some station)
    (run : Run (Relation.ReflTransGen Plan.Touched) first blocks last)
    (complete : ∀ block ∈ blocks, ∀ call ∈ block.calls, call.Complete) :
    last.HushedAt place station ∧ ∀ block ∈ blocks, (∀ call ∈ block.calls, call.position ≠ place) ∧
      first.Retains block.after ∧ block.after.HushedAt place station := by
  induction run with
  | start => exact ⟨hushed, by simp⟩
  | render sooner changes renders ih =>
    obtain ⟨earlier, here⟩ := forall_mem_concat.mp complete
    obtain ⟨now, all⟩ := ih earlier
    have before := (Retains.run sooner).trans (.touches changes)
    obtain ⟨hushed, uncalled⟩ :=
      (now.touches changes).rendered (before.charts charts) (before.layout ▸ found) here renders
    exact ⟨hushed, forall_mem_concat.mpr ⟨all, uncalled, before.trans (.rendered renders), hushed⟩⟩

end Plan.HushedAt

def Plan.Hushed (plan : Plan ν) (id : NodeId) : Prop :=
  ∀ port signal, plan.output? id port = some signal → signal.isSilent = true

theorem Plan.HushedAt.outputs {id : NodeId} (hushed : plan.HushedAt place station)
    (charts : plan.Charts patch placed survey) (found : plan.layout.stations[place]? = some station)
    (placedAt : plan.monitor.order[place]? = some id) : plan.Hushed id := by
  intro port signal shown
  obtain ⟨item, held, rfl⟩ := charts.place_at placedAt
  simp only [output?, charts.position?_eq held, found, Option.bind_eq_bind, Option.bind_some] at shown
  split at shown
  · rename_i inside
    obtain ⟨lane, there, same⟩ := Option.bind_eq_some_iff.mp shown
    cases same
    exact hushed.hushed _ lane (Nat.le_add_right _ _) (Nat.add_lt_add_left inside _) there
  · cases shown

theorem Plan.HushedAt.of_fails {engine rendered : Engine} {context moved : Context} {calls : List (Call ν)}
    (charts : plan.Charts patch placed survey) (complete : ∀ call ∈ calls, call.Complete)
    (answer : engine.render plan context = .ok (calls, rendered, after, moved)) {call : Call ν} (member : call ∈ calls)
    (fails : call.fails = true) (found : plan.layout.stations[call.position]? = some station)
    (room : call.position < plan.monitor.failed.size) : after.HushedAt call.position station := by
  obtain ⟨_, _, state, _, _, _, _, passed, _, _, _, rfl, _⟩ := Engine.render_parts answer
  obtain ⟨hushed, marked⟩ :=
    Progress.runFrom_hushes (charts.stations.among found) complete passed member fails rfl room
  exact ⟨marked, hushed⟩

/-- A node that fails is silent from then on, whatever any node leaves in the places of its outputs. -/
theorem Plan.Charts.hushes (charts : plan.Charts patch placed survey)
    (marks : plan.monitor.failed.size = plan.layout.stations.length) {sofar later : List (Block ν)} {block : Block ν}
    (run : Run (Relation.ReflTransGen Plan.Touched) plan (sofar ++ block :: later) last)
    (complete : ∀ other ∈ sofar ++ block :: later, ∀ call ∈ other.calls, call.Complete) {call : Call ν}
    (member : call ∈ block.calls) (fails : call.fails = true) {id : NodeId}
    (placedAt : plan.monitor.order[call.position]? = some id) :
    block.after.Hushed id ∧ ∀ other ∈ later,
      (∀ again ∈ other.calls, again.position ≠ call.position) ∧ other.after.Hushed id := by
  obtain ⟨item, held, rfl⟩ := charts.place_at placedAt
  obtain ⟨station, found, _⟩ := charts.stations.stationed held
  have heard : ∀ {now : Plan ν}, plan.Retains now → now.HushedAt call.position station → now.Hushed item.id :=
    fun retains hushed =>
      hushed.outputs (retains.charts charts) (retains.layout ▸ found) (retains.order ▸ placedAt)
  obtain ⟨middle, sooner, rest⟩ := run.split (List.append_cons sofar block later)
  obtain ⟨_, before, changes, renders, rfl⟩ := sooner.last_block rfl
  have retains := (Plan.Retains.run before).trans (.touches changes)
  have hushed : block.after.HushedAt call.position station := by
    refine .of_fails (retains.charts charts) (complete block (by simp)) renders member fails (retains.layout ▸ found) ?_
    rw [retains.marks, marks]
    exact (List.getElem?_eq_some_iff.mp found).1
  have retains := retains.trans (.rendered renders)
  -- What follows is a run of its own, in which the node has failed from the start.
  obtain ⟨_, all⟩ := hushed.run (retains.charts charts) (retains.layout ▸ found) rest
    fun other among => complete other (by simp [among])
  refine ⟨heard retains hushed, fun other among => ?_⟩
  obtain ⟨uncalled, later, hushed⟩ := all other among
  exact ⟨uncalled, heard (retains.trans later) hushed⟩

end Patchbay
