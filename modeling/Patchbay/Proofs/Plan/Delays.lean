import Patchbay.Proofs.Plan.Routes

/-! Delays fit the lines that have to hold them.

While no node exceeds what it declares, a producer's wait fits its output lanes,
and what is left for an edge fits the edge's line. An edge without a line has
nothing left.
-/

set_option autoImplicit false

namespace Patchbay

variable {ν : Type} [Node ν] {patch : Patch ν} {placed : List (Placed ν)} {survey : Survey}
  {latency : Nat → Nat} {alignment : Alignment}

namespace Surveyed

theorem consumer_lt (surveyed : Surveyed patch placed survey) {producer consumer : Nat}
    (member : consumer ∈ survey.graph.consumersOf producer) : consumer < survey.graph.size := by
  obtain ⟨place, _, item, _⟩ := surveyed.mem_consumersOf.mp member
  rw [surveyed.size]
  exact (List.getElem?_eq_some_iff.mp item).1

variable (surveyed : Surveyed patch placed survey) (aligned : survey.graph.Aligned latency alignment)
  (within : ∀ position, latency position ≤ (declaredAt placed).getD position 0)
include surveyed aligned within

theorem arrival_le_worst {position : Nat} (inside : position < survey.graph.size) :
    alignment.arrivalAt position ≤ survey.worst.arrivalAt position :=
  (aligned.arrival inside).mono within (surveyed.worst.arrival inside)

theorem wait_le_capacity {producer consumer wait : Nat}
    (member : consumer ∈ survey.graph.consumersOf producer)
    (waits : alignment.values[producer]? = some wait) : wait ≤ survey.delayCapacity producer := by
  unfold Survey.delayCapacity
  cases least : ((survey.graph.consumersOf producer).map survey.worst.arrivalAt).min? with
  | none =>
    rw [List.min?_eq_none_iff, List.map_eq_nil_iff] at least
    rw [least] at member
    cases member
  | some earliest =>
    -- The consumer that is earliest at the worst bounds the wait.
    obtain ⟨attained, _⟩ := List.min?_eq_some_iff.mp least
    obtain ⟨first, among, rfl⟩ := List.mem_map.mp attained
    obtain ⟨link, atLink⟩ := surveyed.inOrder.exists_link among
    obtain ⟨again, rest, found, _, balance⟩ := aligned.balance atLink
    rw [waits] at found
    cases found
    have := surveyed.arrival_le_worst aligned within (surveyed.consumer_lt among)
    rw [Option.getD_some]
    omega

theorem rest_le_worst {producer consumer link rest : Nat}
    (atLink : survey.graph.link producer consumer = some link)
    (left : alignment.links[link]? = some rest) : rest ≤ survey.worst.arrivalAt consumer := by
  have member := surveyed.inOrder.mem_of_link atLink
  have := surveyed.arrival_le_worst aligned within (surveyed.consumer_lt member)
  obtain ⟨_, again, _, found, balance⟩ := aligned.balance atLink
  rw [left] at found
  cases found
  omega

theorem rest_eq_zero {producer consumer link rest : Nat}
    (member : consumer ∈ survey.graph.consumersOf producer)
    (atLink : survey.graph.link producer consumer = some link)
    (left : alignment.links[link]? = some rest)
    (idle : survey.graph.fansOut producer = true → survey.worst.arrivalAt consumer = 0) : rest = 0 := by
  by_cases fans : survey.graph.fansOut producer = true
  · have := surveyed.arrival_le_worst aligned within (surveyed.consumer_lt member)
    obtain ⟨_, again, _, found, balance⟩ := aligned.balance atLink
    rw [left] at found
    cases found
    have := idle fans
    omega
  · -- A single consumer is the one that has nothing left.
    have some : survey.graph.consumersOf producer ≠ [] := List.ne_nil_of_mem member
    obtain ⟨only, other, atOther, nothing⟩ := aligned.tight some
    have few : (survey.graph.consumersOf producer).length ≤ 1 := by
      simpa [LatencyGraph.fansOut] using fans
    have same : only = consumer := by
      have also := surveyed.inOrder.mem_of_link atOther
      obtain ⟨single, alone⟩ := List.length_eq_one_iff.mp (few.antisymm (List.length_pos_of_mem member))
      rw [alone, List.mem_singleton] at member also
      rw [member, also]
    rw [same, atLink] at atOther
    cases atOther
    rw [left] at nothing
    exact Option.some.inj nothing

end Surveyed

theorem Stations.delays {stations : List Station} (laid : Stations patch placed survey stations)
    {edge : Edge} {station : Station} {position producer : Nat} {type : PortType} {feed : Feed}
    (routed : edge.Routed placed survey stations station position producer type feed)
    (found : stations[position]? = some station) (delayable : type.kind ≠ .control)
    (aligned : survey.graph.Aligned latency alignment)
    (within : ∀ position, latency position ≤ (declaredAt placed).getD position 0) :
    ∃ wait, alignment.values[producer]? = some wait ∧ wait ≤ survey.delayCapacity producer ∧
      ((feed.lane = feed.source ∧
        alignment.arrivalAt producer + latency producer + wait = alignment.arrivalAt position) ∨
      ∃ link rest, (⟨feed.source, feed.lane, type, link, survey.worst.arrivalAt position⟩ : RouteLine) ∈
          station.lines ∧
        alignment.links[link]? = some rest ∧ rest ≤ survey.worst.arrivalAt position ∧
        rest ≤ survey.bound ∧
        alignment.arrivalAt producer + latency producer + wait + rest = alignment.arrivalAt position) := by
  have surveyed := laid.surveyed
  have member := routed.consumer
  -- An edge reads the output itself, with nothing left to wait for, or has a line of its own.
  cases routed.reads with
  | shared same idle =>
    obtain ⟨link, atLink⟩ := surveyed.inOrder.exists_link member
    obtain ⟨wait, rest, waits, left, balance⟩ := aligned.balance atLink
    have none := surveyed.rest_eq_zero aligned within member atLink left fun fans => idle fans delayable
    exact ⟨wait, waits, surveyed.wait_le_capacity aligned within member waits, .inl ⟨same, by omega⟩⟩
  | @own link atLink _ among =>
    obtain ⟨wait, rest, waits, left, balance⟩ := aligned.balance atLink
    obtain ⟨place, item, stationed⟩ := laid.place_of found
    have slot : (type, survey.worst.arrivalAt position) ∈ station.slots :=
      List.mem_append_left _ (List.mem_map.mpr ⟨_, among, rfl⟩)
    have bounded := (laid.slot_line item stationed slot).2
    have := surveyed.arrival_le_worst aligned within (surveyed.consumer_lt member)
    dsimp only at bounded
    exact ⟨wait, waits, surveyed.wait_le_capacity aligned within member waits,
      .inr ⟨link, rest, among, left, by omega, by omega, balance⟩⟩

theorem Stations.wait_le {stations : List Station} (laid : Stations patch placed survey stations)
    {position wait : Nat} {station : Station} (found : stations[position]? = some station)
    (waits : alignment.values[position]? = some wait) (aligned : survey.graph.Aligned latency alignment)
    (within : ∀ position, latency position ≤ (declaredAt placed).getD position 0) :
    wait ≤ station.delayCapacity := by
  have surveyed := laid.surveyed
  obtain ⟨place, item, stationed⟩ := laid.place_of found
  rw [stationed.delayCapacity]
  by_cases unread : survey.graph.consumersOf position = []
  · have inside : position < survey.graph.size := by
      rw [surveyed.size]
      exact (List.getElem?_eq_some_iff.mp item).1
    have idle := aligned.idle inside unread
    rw [waits] at idle
    cases idle
    exact Nat.zero_le _
  · obtain ⟨consumer, member⟩ := List.exists_mem_of_ne_nil _ unread
    exact surveyed.wait_le_capacity aligned within member waits

end Patchbay
