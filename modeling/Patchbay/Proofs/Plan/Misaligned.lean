import Patchbay.Proofs.Plan.Delays

/-! Links that cannot apply what is left for them.

A link has a line as soon as an edge of it can be delayed and may have to be. So
while no node exceeds what it declares, only links of nothing but control edges
stay early.
-/

set_option autoImplicit false

namespace Patchbay

variable {ν : Type}

def idOf (placed : List (Placed ν)) (position : Nat) : NodeId :=
  (placed[position]?.map (·.id)).getD ⟨0⟩

theorem idOf_eq {placed : List (Placed ν)} {position : Nat} {place : Placed ν} (item : placed[position]? = some place) :
    idOf placed position = place.id := by
  rw [idOf, item]
  rfl

variable [Node ν]

structure Patch.ControlOnly (patch : Patch ν) (source dest : NodeId) : Prop where
  feeds : patch.Feeds source dest
  control : ∀ id edge spec, patch.edge? id = some edge → edge.source = source → edge.dest = dest →
    patch.OutputAt source edge.sourcePort spec → spec.type.kind = .control

namespace Survey

def roomBetween (survey : Survey) (source dest : Nat) : Nat :=
  ((survey.wiresBetween source dest).map (survey.lineCapacity dest)).foldl max 0

def restBetween (survey : Survey) (alignment : Alignment) (source dest : Nat) : Nat :=
  ((survey.graph.link source dest).bind (alignment.links[·]?)).getD 0

end Survey

namespace Surveyed

variable {patch : Patch ν} {placed : List (Placed ν)} {survey : Survey} {latency : Nat → Nat}
  {alignment : Alignment} {producer consumer : Nat} {origin place : Placed ν}
  (surveyed : Surveyed patch placed survey)
include surveyed

theorem controlOnly_iff (source : placed[producer]? = some origin) (item : placed[consumer]? = some place)
    (member : consumer ∈ survey.graph.consumersOf producer) :
    patch.ControlOnly origin.id place.id ↔
      ∀ wire ∈ survey.wiresBetween producer consumer, wire.type.kind = .control := by
  constructor
  · intro only wire among
    obtain ⟨id, edge, spec, found, from_, into, atPort, type⟩ :=
      (surveyed.exists_wireBetween_iff source item).mp ⟨wire, among, rfl⟩
    rw [← type]
    exact only.control id edge spec found from_ into atPort
  · intro control
    obtain ⟨_, _, atDest, atSource, feeds⟩ := surveyed.mem_consumersOf.mp member
    rw [item] at atDest
    rw [source] at atSource
    cases atDest
    cases atSource
    refine ⟨feeds, fun id edge spec found from_ into atPort => ?_⟩
    obtain ⟨wire, among, type⟩ :=
      (surveyed.exists_wireBetween_iff source item).mpr ⟨id, edge, spec, found, from_, into, atPort, rfl⟩
    rw [← type]
    exact control wire among

section

variable (aligned : survey.graph.Aligned latency alignment)
  (within : ∀ position, latency position ≤ (declaredAt placed).getD position 0)
include aligned within

/-- A link's lines are too short for what is left exactly if it has none, for want of
an edge that can be delayed. -/
theorem roomBetween_lt_iff {link rest : Nat} (source : placed[producer]? = some origin)
    (item : placed[consumer]? = some place) (atLink : survey.graph.link producer consumer = some link)
    (left : alignment.links[link]? = some rest) :
    survey.roomBetween producer consumer < rest ↔ 0 < rest ∧ patch.ControlOnly origin.id place.id := by
  have member := surveyed.inOrder.mem_of_link atLink
  rw [surveyed.controlOnly_iff source item member]
  obtain ⟨_, bounds, attained⟩ := foldl_max_spec
    ((survey.wiresBetween producer consumer).map (survey.lineCapacity consumer)) 0
  constructor
  · intro short
    refine ⟨by omega, fun wire among => ?_⟩
    by_contra delayable
    have room := bounds _ (List.mem_map.mpr ⟨wire, among, rfl⟩)
    obtain rfl := of_decide_eq_true (List.mem_filter.mp among).2
    unfold Survey.roomBetween at short
    have reach := surveyed.rest_le_worst aligned within atLink left
    by_cases fans : survey.graph.fansOut wire.source = true
    · rw [Survey.lineCapacity, if_pos ⟨fans, delayable⟩] at room
      omega
    · have := surveyed.rest_eq_zero aligned within member atLink left fun also => absurd also fans
      omega
  · rintro ⟨positive, control⟩
    have none : survey.roomBetween producer consumer = 0 := by
      rcases attained with zero | among
      · exact zero
      · obtain ⟨wire, among, same⟩ := List.mem_map.mp among
        unfold Survey.roomBetween
        rw [← same, Survey.lineCapacity, if_neg fun fans => fans.2 (control wire among)]
    omega

omit within in
theorem countMisaligned_eq : countMisaligned alignment.links survey.linkCapacity.toArray =
    (survey.graph.links.filter fun (source, dest) =>
      survey.roomBetween source dest < survey.restBetween alignment source dest).length := by
  have table : alignment.links.toList.zip survey.linkCapacity = survey.graph.links.map fun (source, dest) =>
      (survey.restBetween alignment source dest, survey.roomBetween source dest) := by
    refine List.ext_getElem (by simp [Survey.linkCapacity, aligned.links_size]) fun number here there => ?_
    rw [List.length_map] at there
    have found := List.getElem?_eq_getElem there
    generalize survey.graph.links[number] = link at found
    obtain ⟨source, dest⟩ := link
    have numbered := surveyed.inOrder.link_of_getElem?_links found
    obtain ⟨_, rest, _, left, _⟩ := aligned.balance numbered
    obtain ⟨_, atLink⟩ := List.getElem?_eq_some_iff.mp found
    obtain ⟨_, atRest⟩ := Array.getElem?_eq_some_iff.mp left
    simp only [List.getElem_zip, List.getElem_map, Survey.linkCapacity, atLink, Array.getElem_toList, atRest,
      Survey.restBetween, numbered, Option.bind_some, left, Option.getD_some]
    rfl
  rw [countMisaligned, ← Array.countP_toList, Array.toList_zip, table, List.countP_map,
    List.countP_eq_length_filter]
  rfl

theorem misaligned_pairs : ∃ pairs : List (NodeId × NodeId), pairs.Nodup ∧
    countMisaligned alignment.links survey.linkCapacity.toArray = pairs.length ∧
    ∀ source dest, (source, dest) ∈ pairs ↔ patch.ControlOnly source dest ∧
      ∃ producer consumer link rest origin place, placed[producer]? = some origin ∧ origin.id = source ∧
        placed[consumer]? = some place ∧ place.id = dest ∧ survey.graph.link producer consumer = some link ∧
        alignment.links[link]? = some rest ∧ 0 < rest := by
  have idAt : ∀ {producer consumer}, (producer, consumer) ∈ survey.graph.links →
      ∃ origin place, placed[producer]? = some origin ∧ placed[consumer]? = some place := by
    intro producer consumer member
    obtain ⟨place, origin, item, source, _⟩ :=
      surveyed.mem_consumersOf.mp (surveyed.inOrder.mem_links.mp member)
    exact ⟨origin, place, source, item⟩
  -- Links are counted by position. Positions and ids match one to one, so naming the ends keeps the count.
  refine ⟨(survey.graph.links.filter fun (source, dest) =>
    survey.roomBetween source dest < survey.restBetween alignment source dest).map fun (source, dest) =>
      (idOf placed source, idOf placed dest), ?_, ?_, ?_⟩
  · refine List.Nodup.map_on ?_ (surveyed.inOrder.links_nodup.filter _)
    rintro ⟨source, dest⟩ member ⟨source', dest'⟩ member' same
    obtain ⟨origin, place, atSource, atDest⟩ := idAt (List.mem_filter.mp member).1
    obtain ⟨origin', place', atSource', atDest'⟩ := idAt (List.mem_filter.mp member').1
    simp only [idOf_eq atSource, idOf_eq atDest, idOf_eq atSource', idOf_eq atDest', Prod.mk.injEq] at same
    rw [surveyed.placement.position_unique atSource atSource' same.1,
      surveyed.placement.position_unique atDest atDest' same.2]
  · rw [surveyed.countMisaligned_eq aligned, List.length_map]
  · intro source dest
    simp only [List.mem_map, List.mem_filter, Prod.exists, Prod.mk.injEq, decide_eq_true_eq]
    constructor
    · rintro ⟨producer, consumer, ⟨listed, short⟩, rfl, rfl⟩
      obtain ⟨origin, place, atSource, atDest⟩ := idAt listed
      obtain ⟨link, atLink⟩ := surveyed.inOrder.exists_link (surveyed.inOrder.mem_links.mp listed)
      obtain ⟨_, rest, _, left, _⟩ := aligned.balance atLink
      rw [Survey.restBetween, atLink, Option.bind_some, left, Option.getD_some,
        surveyed.roomBetween_lt_iff aligned within atSource atDest atLink left] at short
      rw [idOf_eq atSource, idOf_eq atDest]
      exact ⟨short.2, producer, consumer, link, rest, origin, place, atSource, rfl, atDest, rfl, atLink, left,
        short.1⟩
    · rintro ⟨only, producer, consumer, link, rest, origin, place, atSource, rfl, atDest, rfl, atLink, left,
        positive⟩
      refine ⟨producer, consumer, ⟨?_, ?_⟩, idOf_eq atSource, idOf_eq atDest⟩
      · exact surveyed.inOrder.mem_links.mpr (surveyed.inOrder.mem_of_link atLink)
      · rw [Survey.restBetween, atLink, Option.bind_some, left, Option.getD_some,
          surveyed.roomBetween_lt_iff aligned within atSource atDest atLink left]
        exact ⟨positive, only⟩

end

end Surveyed

end Patchbay
