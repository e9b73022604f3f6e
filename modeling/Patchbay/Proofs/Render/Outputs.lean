import Patchbay.Proofs.Node.Access
import Patchbay.Proofs.Render.Lanes
import Patchbay.Proofs.Render.Slots

/-! Where a call's outputs go.

What a node wrote is put into its station's output lanes and goes through their
delay lines, all by one delay. What a failed node had in its lines stays there.
-/

set_option autoImplicit false

namespace Patchbay

variable {ν : Type}

/-- The call left its outputs and the merge space in the shapes that it found. -/
structure Call.Orderly (format : Format) (call : Call ν) : Prop where
  outputs : ∀ types, format.AllShape types call.ports.outputs → format.AllShape types call.reply.outputs
  space : call.ports.inputs.space.Alike call.reply.inputs.space

/-- The node used nothing but the accessors of its ports. -/
def Call.Typed (call : Call ν) : Prop := call.ports.Accesses call.reply

theorem Call.Typed.orderly {call : Call ν} (typed : call.Typed) (format : Format) :
    call.Orderly format :=
  ⟨fun _ all => all.accesses typed, typed.alike⟩

theorem Format.allShape_silence (format : Format) (types : List PortType) :
    format.AllShape types (types.map format.silence).toArray := by
  refine ⟨by simp, ?_⟩
  intro port type buffer typed found
  rw [List.getElem?_toArray, List.getElem?_map, typed] at found
  cases found
  exact shapes_silence type

theorem Format.AllShape.clear {format : Format} {types : List PortType} {buffers : Array SignalBuffer}
    (all : format.AllShape types buffers) : buffers.map SignalBuffer.clear = (types.map format.silence).toArray := by
  refine Array.ext (by simp [all.size]) fun port here there => ?_
  have inside : port < buffers.size := by simpa using here
  have typed : port < types.length := by simpa using there
  simpa using (all.shapes port types[port] buffers[port] (List.getElem?_eq_getElem typed)
    (Array.getElem?_eq_getElem inside)).clear_eq

theorem Call.Orderly.written {format : Format} {call : Call ν} {types : List PortType}
    (orderly : call.Orderly format) (blank : call.ports.outputs = (types.map format.silence).toArray) :
    format.AllShape types call.written := by
  have left := orderly.outputs types (blank ▸ format.allShape_silence types)
  unfold Call.written
  split
  · exact left
  · exact left.clear ▸ format.allShape_silence types

theorem Call.written_undone {format : Format} {call : Call ν} {types : List PortType}
    (undone : call.outcome ≠ .done) (shapes : format.AllShape types call.written) :
    call.written = (types.map format.silence).toArray := by
  -- What was cleared once more would not change, and would be silence by its shapes.
  rw [← shapes.clear]
  unfold Call.written
  split
  · rename_i done
    exact absurd done undone
  · simp [Function.comp_def]

/-- Where a call's outputs go: into their lanes' delay lines, or past them if the
node failed. -/
inductive Station.Emits (compensation : Array Nat) (clock blockSize : Nat) (before after : Array Lane)
    (station : Station) (call : Call ν) : List Nat → Prop where
  | failed : call.fails = true →
      (∀ item ∈ call.written.toList.zipIdx station.base, ∃ old, before[item.2]? = some old ∧
        after[item.2]? = some { old with buffer := item.1 }) → Emits compensation clock blockSize before
          after station call []
  | delayed {wanted : Nat} {losses : List Nat} : call.fails = false →
      compensation[call.position]? = some wanted →
      List.Forall₂ (fun item lost => Takes clock blockSize before after item.2 item.1
        (min wanted station.delayCapacity) lost) (call.written.toList.zipIdx station.base) losses →
      Emits compensation clock blockSize before after station call losses

theorem Station.Emits.congr {compensation : Array Nat} {clock blockSize : Nat}
    {before after earlier later : Array Lane} {station : Station} {call : Call ν} {losses : List Nat}
    (emits : station.Emits compensation clock blockSize before after call losses)
    (size : call.written.size = station.outputs.length)
    (start : ∀ lane, station.base ≤ lane → lane < station.stop →
      (earlier[lane]?).map (·.delay) = (before[lane]?).map (·.delay))
    (stop : ∀ lane, station.base ≤ lane → lane < station.stop → later[lane]? = after[lane]?) :
    station.Emits compensation clock blockSize earlier later call losses := by
  have inside : ∀ item ∈ call.written.toList.zipIdx station.base,
      station.base ≤ item.2 ∧ item.2 < station.stop := by
    intro item member
    have past := List.snd_lt_add_of_mem_zipIdx member
    rw [Array.length_toList, size] at past
    exact ⟨List.le_snd_of_mem_zipIdx member, past⟩
  -- Either way, what is left depends on the station's own lanes only.
  cases emits with
  | failed fails kept =>
    refine .failed fails fun item member => ?_
    obtain ⟨low, high⟩ := inside item member
    obtain ⟨old, found, made⟩ := kept item member
    have same := start item.2 low high
    rw [found, Option.map_some, Option.map_eq_some_iff] at same
    obtain ⟨first, there, delay⟩ := same
    exact ⟨first, there, by rw [stop item.2 low high, made, delay]⟩
  | delayed runs published takes =>
    refine .delayed runs published (((List.forall₂_and_left _ _).mpr ⟨inside, takes⟩).imp ?_)
    rintro item lost ⟨⟨low, high⟩, takes⟩
    exact takes.congr (start item.2 low high) (stop item.2 low high)

theorem mem_zipIdx_toList {α : Type} {items : Array α} {base : Nat} {item : α × Nat} :
    item ∈ items.toList.zipIdx base ↔ ∃ port, items[port]? = some item.1 ∧ item.2 = base + port := by
  rw [List.mem_zipIdx_iff_le_and_getElem?_sub, Array.getElem?_toList]
  constructor
  · rintro ⟨above, found⟩
    exact ⟨item.2 - base, found, by omega⟩
  · rintro ⟨port, found, same⟩
    rw [same, Nat.add_sub_cancel_left]
    exact ⟨Nat.le_add_right base port, found⟩

theorem Station.Emits.unique {compensation : Array Nat} {clock blockSize : Nat}
    {before after before' after' : Array Lane} {station : Station} {call call' : Call ν} {losses losses' : List Nat}
    (emits : station.Emits compensation clock blockSize before after call losses)
    (also : station.Emits compensation clock blockSize before' after' call' losses')
    (position : call'.position = call.position) (fails : call'.fails = call.fails)
    (written : call'.written = call.written) {port : Nat} (inside : port < call.written.size)
    (same : before'[station.base + port]? = before[station.base + port]?) :
    after'[station.base + port]? = after[station.base + port]? := by
  obtain ⟨signal, wrote⟩ : ∃ signal, call.written[port]? = some signal := ⟨_, Array.getElem?_eq_getElem inside⟩
  have member : (signal, station.base + port) ∈ call.written.toList.zipIdx station.base :=
    mem_zipIdx_toList.mpr ⟨port, wrote, rfl⟩
  have member' : (signal, station.base + port) ∈ call'.written.toList.zipIdx station.base :=
    mem_zipIdx_toList.mpr ⟨port, written ▸ wrote, rfl⟩
  -- The two calls end alike, so the mixed cases do not occur.
  cases emits with
  | failed _ stored =>
    cases also with
    | failed _ stored' =>
      obtain ⟨old, found, made⟩ := stored _ member
      obtain ⟨old', found', made'⟩ := stored' _ member'
      dsimp only at found found' made made'
      rw [found', found] at same
      cases same
      rw [made', made]
    | delayed runs => simp_all
  | delayed runs published takes =>
    cases also with
    | failed fails' => simp_all
    | delayed _ published' takes' =>
      rw [position, published] at published'
      cases published'
      obtain ⟨_, _, takes⟩ := exists_of_mem_left takes member
      obtain ⟨_, _, takes'⟩ := exists_of_mem_left takes' member'
      exact takes.unique takes' same

/-! ## Stored and delayed outputs -/

namespace Progress

theorem store_cons (lanes : Array Lane) (base : Nat) (first : SignalBuffer) (rest : List SignalBuffer) :
    store lanes base (first :: rest) =
      store (lanes.modify base fun lane => { lane with buffer := first }) (base + 1) rest := by
  simp only [store, List.zipIdx_cons, List.foldl_cons, Nat.add_zero, List.zipIdx_succ, List.foldl_map,
    Nat.add_assoc, Nat.add_comm 1, Nat.zero_add]

theorem store_outside (lanes : Array Lane) (base : Nat) (buffers : List SignalBuffer) :
    SameOutside base (base + buffers.length) lanes (store lanes base buffers) := by
  induction buffers generalizing lanes base with
  | nil => exact .refl _ _ _
  | cons first rest ih =>
    have here : SameOutside base (base + 1) lanes
        (lanes.modify base fun lane => { lane with buffer := first }) := by
      refine ⟨Array.size_modify, ?_⟩
      intro lane outside
      rw [Array.getElem?_modify, if_neg (by omega)]
    rw [store_cons]
    exact (here.trans (ih _ _)).widen (by omega) (by rw [List.length_cons]; omega)

theorem store_stored (lanes : Array Lane) (base : Nat) (buffers : List SignalBuffer)
    (room : base + buffers.length ≤ lanes.size) : ∀ item ∈ buffers.zipIdx base, ∃ old,
      lanes[item.2]? = some old ∧
        (store lanes base buffers)[item.2]? = some { old with buffer := item.1 } := by
  induction buffers generalizing lanes base with
  | nil => simp
  | cons first rest ih =>
    intro item member
    rw [List.length_cons] at room
    rw [store_cons]
    rw [List.zipIdx_cons] at member
    -- What is stored later goes behind the first lane.
    rcases List.mem_cons.mp member with rfl | later
    · have found : lanes[base]? = some lanes[base] := Array.getElem?_eq_getElem (by omega)
      refine ⟨_, found, ?_⟩
      rw [(store_outside _ _ _).same (.inl (Nat.lt_succ_self base)), Array.getElem?_modify, if_pos rfl,
        found]
      rfl
    · have shorter : base + 1 + rest.length ≤
          (lanes.modify base fun lane => { lane with buffer := first }).size := by
        rw [Array.size_modify]
        omega
      obtain ⟨old, found, stored⟩ := ih _ _ shorter item later
      have past := List.le_snd_of_mem_zipIdx later
      rw [Array.getElem?_modify, if_neg (by omega)] at found
      exact ⟨old, found, stored⟩

theorem exists_port {station : Station} {lane : Nat} (inside : station.base ≤ lane ∧ lane < station.stop) :
    ∃ port type, lane = station.base + port ∧ station.outputs[port]? = some type := by
  refine ⟨lane - station.base, _, by omega, List.getElem?_eq_getElem ?_⟩
  have := inside.2
  unfold Station.stop at this
  omega

variable {format : Format} {slots : List (PortType × Nat)} {clock blockSize : Nat}

theorem furnished_store {lanes : Array Lane} {station : Station} {written : Array SignalBuffer}
    (furnished : format.Furnished slots lanes) (slotted : station.Slotted slots)
    (shapes : format.AllShape station.outputs written) (room : station.stop ≤ lanes.size) :
    format.Furnished slots (store lanes station.base written.toList) := by
  have length : written.toList.length = station.outputs.length := shapes.size
  have outside := store_outside lanes station.base written.toList
  have stored := store_stored lanes station.base written.toList (by
    rw [length]
    exact room)
  rw [length] at outside
  -- A lane is one of the station's outputs or was left alone.
  have cases : ∀ {lane : Nat} {slot item}, slots[lane]? = some slot →
      (store lanes station.base written.toList)[lane]? = some item →
      lanes[lane]? = some item ∨ ∃ old, lanes[lane]? = some old ∧ item.delay = old.delay ∧
        format.Shapes slot.1 item.buffer := by
    intro lane slot item typed found
    by_cases inside : station.base ≤ lane ∧ lane < station.stop
    · obtain ⟨port, type, rfl, output⟩ := exists_port inside
      rw [slotted.outputs output] at typed
      cases typed
      have there := (List.getElem?_eq_some_iff.mp output).1
      obtain ⟨signal, atPort⟩ : ∃ signal, written[port]? = some signal :=
        ⟨_, Array.getElem?_eq_getElem (by rw [shapes.size]; exact there)⟩
      obtain ⟨old, before, after⟩ := stored (signal, station.base + port)
        (mem_zipIdx_toList.mpr ⟨port, atPort, rfl⟩)
      rw [after] at found
      cases found
      exact .inr ⟨old, before, rfl, shapes.shapes port type _ output atPort⟩
    · rw [outside.same (by unfold Station.stop at inside; omega)] at found
      exact .inl found
  refine ⟨outside.size.trans furnished.size, ?_, ?_⟩
  · intro lane slot item typed found
    rcases cases typed found with same | ⟨_, _, _, shapes⟩
    · exact furnished.shapes typed same
    · exact shapes
  · intro lane slot item typed found
    rcases cases typed found with same | ⟨old, before, same, _⟩
    · exact furnished.holds typed same
    · rw [same]
      exact furnished.holds typed before

variable {state next : Progress ν}

theorem delayLanes_spec (state : Progress ν) (signals : List SignalBuffer)
    {delay capacity lane count : Nat} (furnished : format.Furnished slots state.lanes) (fits : delay ≤ capacity)
    (slotted : ∀ item ∈ signals.zipIdx lane, ∃ type old, slots[item.2]? = some (type, capacity) ∧
      state.lanes[item.2]? = some old ∧ old.buffer = item.1) (length : signals.length = count)
    (answer : delayLanes delay clock blockSize lane count state = .ok next) :
    next.nodes = state.nodes ∧ next.space = state.space ∧
      SameOutside lane (lane + count) state.lanes next.lanes ∧
      format.Furnished slots next.lanes ∧ ∃ losses,
        List.Forall₂ (fun item lost => Takes clock blockSize state.lanes next.lanes item.2 item.1 delay
          lost) (signals.zipIdx lane) losses ∧ state.monitor.Counts losses.sum next.monitor := by
  subst length
  induction signals generalizing lane state with
  | nil =>
    cases answer
    exact ⟨rfl, rfl, .refl _ _ _, furnished, [], .nil, .none _⟩
  | cons signal rest ih =>
    simp only [List.length_cons, delayLanes, bind_eq_ok, itemAt_eq_ok, Prod.exists] at answer
    obtain ⟨⟨buffer, line⟩, found, lost, out, queue, applied, answer⟩ := answer
    obtain ⟨type, old, slot, there, rfl⟩ := slotted (signal, lane) List.mem_cons_self
    dsimp only at slot there
    rw [found] at there
    cases there
    dsimp only at applied
    obtain ⟨shapes, holds⟩ :=
      (furnished.holds slot found).apply (furnished.shapes slot found) fits applied
    have outside := sameOutside_set state.lanes lane ⟨out, queue⟩
    obtain ⟨nodes, space, outside', furnished', losses, takes, counts⟩ := ih _
      (furnished.set slot shapes holds) (by
        intro item member
        obtain ⟨type, old, slot, there, same⟩ := slotted item (List.mem_cons_of_mem _ member)
        have past := List.le_snd_of_mem_zipIdx member
        exact ⟨type, old, slot, (outside.same (.inr past)).trans there, same⟩) answer
    refine ⟨nodes, space, (outside.trans outside').widen (by omega) (by
      rw [List.length_cons]
      omega), furnished', lost :: losses, ?_,
      by simpa using (Monitor.counts_overflow state.monitor lost).trans counts⟩
    refine .cons ?_ ?_
    · refine ⟨⟨buffer, line⟩, ⟨out, queue⟩, found, ?_, applied⟩
      exact (outside'.same (.inl (Nat.lt_succ_self lane))).trans (getElem?_set_self found)
    · -- The first delay touched none of the later lanes.
      have later : ∀ item ∈ rest.zipIdx (lane + 1), lane + 1 ≤ item.2 := fun item member =>
        List.le_snd_of_mem_zipIdx member
      refine ((List.forall₂_and_left _ _).mpr ⟨later, takes⟩).imp ?_
      rintro item lost' ⟨past, takes⟩
      exact takes.congr (by rw [outside.same (.inr past)]) rfl

theorem collect_spec {station : Station} {call : Call ν} (furnished : format.Furnished slots state.lanes)
    (slotted : station.Slotted slots) (shapes : format.AllShape station.outputs call.written)
    (room : station.stop ≤ state.lanes.size) :
    SameOutside station.base station.stop state.lanes (state.collect station call).lanes ∧
      format.Furnished slots (state.collect station call).lanes ∧
      (∀ item ∈ call.written.toList.zipIdx station.base, ∃ old, state.lanes[item.2]? = some old ∧
        (state.collect station call).lanes[item.2]? = some { old with buffer := item.1 }) ∧
      state.monitor.Counts call.reply.inputs.dropped (state.collect station call).monitor := by
  have length : call.written.toList.length = station.outputs.length := shapes.size
  have outside := store_outside state.lanes station.base call.written.toList
  rw [length] at outside
  refine ⟨outside, furnished_store furnished slotted shapes room, ?_, Monitor.counts_overflow _ _⟩
  exact store_stored _ _ _ (by
    rw [length]
    exact room)

end Progress

end Patchbay
