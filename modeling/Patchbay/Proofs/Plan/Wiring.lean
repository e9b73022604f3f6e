import Mathlib.Data.List.Forall2
import Mathlib.Data.List.Sort
import Patchbay.Proofs.Plan.Placement

/-! The wires of a patch.

Each port of a placed node gets one wire for each edge into it, in the order of
the edges' ids, and the wire leads from the place of the edge's source. Sorting lays the
leads out in the order in which the cursors ask for them, so each step of a cursor takes
the leads of its node or port and leaves the rest.
-/

set_option autoImplicit false

namespace Patchbay

variable {ν : Type}

theorem zipIdx_pairwise {α : Type} (items : List α) :
    items.zipIdx.Pairwise fun first second => first.2 < second.2 := by
  rw [← List.pairwise_map (f := Prod.snd) (R := (· < ·)), List.zipIdx_map_snd]
  exact List.pairwise_lt_range'

namespace Patch

def edgesInto (patch : Patch ν) (id : NodeId) (port : Nat) : List (EdgeId × Edge) :=
  patch.liveEdges.filter fun (_, edge) => edge.dest = id ∧ edge.destPort = port

variable {patch : Patch ν}

theorem mem_edgesInto {id : NodeId} {port : Nat} {entry : EdgeId × Edge} :
    entry ∈ patch.edgesInto id port ↔
      patch.edge? entry.1 = some entry.2 ∧ entry.2.dest = id ∧ entry.2.destPort = port := by
  simp [edgesInto, ← mem_liveEdges]

theorem liveEdges_pairwise :
    patch.liveEdges.Pairwise fun first second => first.1.index < second.1.index := by
  unfold liveEdges
  rw [List.pairwise_filterMap]
  refine (zipIdx_pairwise patch.edges.toList).imp ?_
  rintro ⟨first, index⟩ ⟨second, later⟩ less entry here entry' there
  cases first <;> cases second <;> simp_all
  rw [← here, ← there]
  exact less

theorem edgesInto_pairwise (id : NodeId) (port : Nat) :
    (patch.edgesInto id port).Pairwise fun first second => first.1.index < second.1.index :=
  liveEdges_pairwise.filter _

end Patch

variable [Node ν]

structure Wire.Carries (patch : Patch ν) (placed : List (Placed ν)) (edge : Edge) (wire : Wire) :
    Prop where
  source : ∃ place, placed[wire.source]? = some place ∧ place.id = edge.source
  port : wire.sourcePort = edge.sourcePort
  type : ∃ spec, patch.OutputAt edge.source edge.sourcePort spec ∧ spec.type = wire.type
  gain : wire.gain = edge.gain

/-- The lead stands for the edge, and ends where the edge does. -/
structure Lead.Stands (patch : Patch ν) (placed : List (Placed ν)) (entry : EdgeId × Edge) (lead : Lead) : Prop where
  edge : lead.edge = entry.1
  dest : ∃ place, placed[lead.dest]? = some place ∧ place.id = entry.2.dest ∧
    lead.destPort < (Node.inputs place.node).length
  port : lead.destPort = entry.2.destPort
  carries : lead.wire.Carries patch placed entry.2

section

variable {patch : Patch ν} {placed : List (Placed ν)}

theorem Patch.leads_stand (placement : Placement patch placed)
    (fits : ∀ id edge, patch.edge? id = some edge → patch.Fits edge) :
    List.Forall₂ (Lead.Stands patch placed) patch.liveEdges (patch.leads placed) := by
  have live : ∀ entry ∈ patch.liveEdges, patch.Fits entry.2 := fun entry member =>
    fits entry.1 entry.2 (Patch.mem_liveEdges.mp member)
  unfold Patch.leads
  generalize patch.liveEdges = edges at live
  induction edges with
  | nil => exact .nil
  | cons entry rest ih =>
    obtain ⟨id, edge⟩ := entry
    obtain ⟨output, input, ⟨source, present, atPort⟩, ⟨dest, there, inPort⟩, _⟩ := live _ List.mem_cons_self
    obtain ⟨position, item⟩ := placement.exists_position present
    obtain ⟨place, goal⟩ := placement.exists_position there
    rw [List.filterMap_cons]
    simp only [placement.findIdx?_eq item, placement.findIdx?_eq goal, item, atPort, Option.bind_eq_bind,
      Option.bind_some, Option.pure_def]
    exact .cons ⟨rfl, ⟨_, goal, rfl, (List.getElem?_eq_some_iff.mp inPort).1⟩, rfl,
      ⟨_, item, rfl⟩, rfl, ⟨output, ⟨source, present, atPort⟩, rfl⟩, rfl⟩
      (ih fun other member => live other (List.mem_cons_of_mem _ member))

end

/-! ## Leads in order -/

namespace Lead

variable {lead other : Lead} {leads : List Lead}

theorem ahead_iff : lead.ahead other = true ↔ lead.dest < other.dest ∨ lead.dest = other.dest ∧
    (lead.destPort < other.destPort ∨ lead.destPort = other.destPort ∧ lead.edge.index ≤ other.edge.index) := by
  simp [ahead]

theorem not_ahead_iff : other.ahead lead = false ↔ lead.dest < other.dest ∨ lead.dest = other.dest ∧
    (lead.destPort < other.destPort ∨ lead.destPort = other.destPort ∧ lead.edge.index < other.edge.index) := by
  rw [← Bool.not_eq_true, ahead_iff]
  omega

theorem sort_eq (leads : List Lead) : sort leads = leads.insertionSort (·.ahead ·) := by
  have insert_eq : ∀ (lead : Lead) rest, lead.insert rest = rest.orderedInsert (·.ahead ·) lead := by
    intro lead rest
    induction rest with
    | nil => rfl
    | cons first rest ih => rw [insert, List.orderedInsert, ih]
  unfold sort List.insertionSort
  congr 1
  funext lead rest
  exact insert_eq lead rest

theorem sort_perm (leads : List Lead) : (sort leads).Perm leads :=
  sort_eq leads ▸ List.perm_insertionSort _ leads

theorem sort_pairwise (leads : List Lead) : (sort leads).Pairwise (·.ahead ·) := by
  have total : Std.Total fun lead other : Lead => lead.ahead other = true := ⟨fun lead other => by
    simp only [ahead_iff]
    omega⟩
  have trans : IsTrans Lead fun lead other => lead.ahead other = true := ⟨fun first second third => by
    simp only [ahead_iff]
    omega⟩
  rw [sort_eq]
  exact List.pairwise_insertionSort _ leads

end Lead

variable {patch : Patch ν} {placed : List (Placed ν)} {leads : List Lead}

def leadsInto (leads : List Lead) (position port : Nat) : List Lead :=
  leads.filter fun lead => lead.dest = position && lead.destPort = port

def leadsAt (leads : List Lead) (slot : Placed ν × Nat) : List Lead :=
  (List.range (Node.inputs slot.1.node).length).flatMap (leadsInto leads slot.2)

theorem mem_leadsInto {position port : Nat} {lead : Lead} :
    lead ∈ leadsInto leads position port ↔ lead ∈ leads ∧ lead.dest = position ∧ lead.destPort = port := by
  simp [leadsInto]

theorem dest_of_mem_leadsAt {slot : Placed ν × Nat} {lead : Lead} (member : lead ∈ leadsAt leads slot) :
    lead.dest = slot.2 := by
  obtain ⟨port, _, among⟩ := List.mem_flatMap.mp member
  exact (mem_leadsInto.mp among).2.1

/-- Sorting lays the leads out node by node and port by port. -/
theorem Lead.sort_eq_flatMap (numbered : leads.Pairwise fun lead other => lead.edge.index < other.edge.index)
    (ends : ∀ lead ∈ leads, ∃ place, placed[lead.dest]? = some place ∧
      lead.destPort < (Node.inputs place.node).length) :
    Lead.sort leads = placed.zipIdx.flatMap (leadsAt leads) := by
  -- Laid out like that, no lead is ahead of one before it, which holds of one order only.
  have strict : (placed.zipIdx.flatMap (leadsAt leads)).Pairwise fun lead other => other.ahead lead = false := by
    refine List.pairwise_flatMap.mpr ⟨fun slot _ => List.pairwise_flatMap.mpr ⟨fun port _ => ?_, ?_⟩, ?_⟩
    · refine (numbered.filter _).imp_of_mem fun here there less => not_ahead_iff.mpr ?_
      obtain ⟨_, node, port⟩ := mem_leadsInto.mp here
      obtain ⟨_, node', port'⟩ := mem_leadsInto.mp there
      omega
    · refine List.pairwise_lt_range.imp fun less lead here other there => not_ahead_iff.mpr ?_
      obtain ⟨_, node, port⟩ := mem_leadsInto.mp here
      obtain ⟨_, node', port'⟩ := mem_leadsInto.mp there
      omega
    · refine (zipIdx_pairwise placed).imp fun less lead here other there => not_ahead_iff.mpr ?_
      have node := dest_of_mem_leadsAt here
      have node' := dest_of_mem_leadsAt there
      omega
  have same : ∀ lead, lead ∈ Lead.sort leads ↔ lead ∈ placed.zipIdx.flatMap (leadsAt leads) := by
    intro lead
    simp only [(sort_perm leads).mem_iff, leadsAt, List.mem_flatMap, mem_leadsInto, List.mem_range]
    constructor
    · intro among
      obtain ⟨place, item, inside⟩ := ends lead among
      exact ⟨(place, lead.dest), List.mk_mem_zipIdx_iff_getElem?.mpr item, _, inside, among, rfl, rfl⟩
    · rintro ⟨_, _, _, _, among, _⟩
      exact among
  have distinct : leads.Nodup := numbered.imp fun less equal => by
    rw [equal] at less
    exact Nat.lt_irrefl _ less
  have nodup : (placed.zipIdx.flatMap (leadsAt leads)).Nodup := strict.imp fun before equal => by
    have after := not_ahead_iff.mp (equal ▸ before)
    omega
  refine List.Perm.eq_of_pairwise ?_ (sort_pairwise leads) (strict.imp fun before => ?_)
    ((List.perm_ext_iff_of_nodup ((sort_perm leads).nodup_iff.mpr distinct) nodup).mpr same)
  · intro lead other here there before after
    have ids : (leads.map (·.edge.index)).Nodup := (List.pairwise_map.mpr numbered).imp Nat.ne_of_lt
    refine List.inj_on_of_nodup_map ids ((sort_perm leads).mem_iff.mp here)
      ((sort_perm leads).mem_iff.mp ((same other).mpr there)) ?_
    rw [ahead_iff] at before after
    omega
  · rw [not_ahead_iff] at before
    rw [ahead_iff]
    omega

/-! ## Cursors -/

/-- A step of a cursor that passes exactly what is its own, if what comes next is foreign. -/
def Passes {β γ : Type} (step : StateM (List β) γ) (own : List β) (out : γ) (foreign : β → Prop) : Prop :=
  ∀ rest, (∀ item ∈ rest, foreign item) → step.run (own ++ rest) = (out, rest)

theorem Lead.passes_pass {belongs : Lead → Bool} {own : List Lead} (all : ∀ lead ∈ own, belongs lead = true) :
    Passes (Lead.pass belongs) own own fun lead => belongs lead = false := by
  intro rest foreign
  have stops : rest.takeWhile belongs = [] ∧ rest.dropWhile belongs = rest := by
    cases rest with
    | nil => exact ⟨rfl, rfl⟩
    | cons first rest =>
      have other := foreign first List.mem_cons_self
      simp [other]
  change ((own ++ rest).takeWhile belongs, (own ++ rest).dropWhile belongs) = _
  rw [List.takeWhile_append_of_pos all, List.dropWhile_append_of_pos all, stops.1, stops.2, List.append_nil]

theorem Passes.mapM {α β γ : Type} {step : α → StateM (List β) γ} {own : α → List β} {out : α → γ}
    {foreign : α → β → Prop} {slots : List α}
    (each : ∀ slot ∈ slots, Passes (step slot) (own slot) (out slot) (foreign slot))
    (apart : slots.Pairwise fun slot later => ∀ item ∈ own later, foreign slot item) :
    Passes (slots.mapM step) (slots.flatMap own) (slots.map out) fun item => ∀ slot ∈ slots, foreign slot item := by
  induction slots with
  | nil => exact fun rest _ => rfl
  | cons slot later ih =>
    obtain ⟨here, apart⟩ := List.pairwise_cons.mp apart
    have others := ih (fun other member => each other (List.mem_cons_of_mem _ member)) apart
    intro rest foreign
    have first := each slot List.mem_cons_self (later.flatMap own ++ rest) fun item member => by
      rcases List.mem_append.mp member with among | behind
      · obtain ⟨other, inLater, inOwn⟩ := List.mem_flatMap.mp among
        exact here other inLater item inOwn
      · exact foreign item behind slot List.mem_cons_self
    have onward := others rest fun item behind other member => foreign item behind other (List.mem_cons_of_mem _ member)
    rw [List.flatMap_cons, List.append_assoc, List.mapM_cons, StateT.run_bind, first]
    change (out slot :: ((later.mapM step).run (later.flatMap own ++ rest)).1,
      ((later.mapM step).run (later.flatMap own ++ rest)).2) = _
    rw [onward, List.map_cons]

theorem Passes.mono {β γ : Type} {step : StateM (List β) γ} {own : List β} {out : γ} {foreign other : β → Prop}
    (passes : Passes step own out foreign) (less : ∀ item, other item → foreign item) : Passes step own out other :=
  fun rest all => passes rest fun item member => less item (all item member)

theorem apart_leadsAt (leads : List Lead) (placed : List (Placed ν)) :
    placed.zipIdx.Pairwise fun slot later => ∀ lead ∈ leadsAt leads later, lead.dest ≠ slot.2 :=
  (zipIdx_pairwise placed).imp fun before _ member => dest_of_mem_leadsAt member ▸ before.ne'

theorem leadsByNode_eq (leads : List Lead) (placed : List (Placed ν)) :
    (leadsByNode placed).run (placed.zipIdx.flatMap (leadsAt leads)) = (placed.zipIdx.map (leadsAt leads), []) := by
  have each : ∀ slot ∈ placed.zipIdx, Passes (Lead.pass (·.dest = slot.2)) (leadsAt leads slot)
      (leadsAt leads slot) fun lead => lead.dest ≠ slot.2 := by
    intro slot _
    refine Passes.mono (Lead.passes_pass fun lead member => ?_) fun lead other => by simpa using other
    simpa using dest_of_mem_leadsAt member
  have taken := Passes.mapM each (apart_leadsAt leads placed) [] nofun
  rwa [List.append_nil] at taken

theorem leadsByPort_eq (leads : List Lead) (placed : List (Placed ν)) :
    (leadsByPort placed).run (placed.zipIdx.flatMap (leadsAt leads)) = (placed.zipIdx.map fun slot =>
      (List.range (Node.inputs slot.1.node).length).map (leadsInto leads slot.2), []) := by
  have each : ∀ slot ∈ placed.zipIdx, Passes
      ((List.range (Node.inputs slot.1.node).length).mapM fun port =>
        Lead.pass fun lead => lead.dest = slot.2 && lead.destPort = port)
      (leadsAt leads slot) ((List.range (Node.inputs slot.1.node).length).map (leadsInto leads slot.2))
      fun lead => lead.dest ≠ slot.2 := by
    intro slot _
    have ports : ∀ port ∈ List.range (Node.inputs slot.1.node).length, Passes
        (Lead.pass fun lead => lead.dest = slot.2 && lead.destPort = port) (leadsInto leads slot.2 port)
        (leadsInto leads slot.2 port) fun lead => lead.dest ≠ slot.2 ∨ lead.destPort ≠ port := by
      intro port _
      refine Passes.mono (Lead.passes_pass fun _ member => (List.mem_filter.mp member).2) fun lead other => ?_
      rcases other with node | port <;> simp [*]
    refine Passes.mono (Passes.mapM ports (List.nodup_range.imp fun apart lead member => ?_))
      fun lead other port _ => .inl other
    exact .inr ((mem_leadsInto.mp member).2.2 ▸ apart.symm)
  have taken := Passes.mapM each (apart_leadsAt leads placed) [] nofun
  rwa [List.append_nil] at taken

/-! ## Rows -/

/-- Sorting and passing along what is sorted tells ports apart as their leads do. -/
theorem wiring_eq (placement : Placement patch placed)
    (fits : ∀ id edge, patch.edge? id = some edge → patch.Fits edge) :
    wiring patch placed = placed.zipIdx.map fun slot => (List.range (Node.inputs slot.1.node).length).map fun port =>
      (leadsInto (patch.leads placed) slot.2 port).map Lead.wire := by
  have stand := Patch.leads_stand placement fits
  have ids : (patch.leads placed).map (·.edge.index) = patch.liveEdges.map (·.1.index) := by
    rw [← List.forall₂_eq_eq_eq, List.forall₂_map_left_iff, List.forall₂_map_right_iff]
    exact stand.flip.imp fun _ _ stands => congrArg EdgeId.index stands.edge
  have numbered : (patch.leads placed).Pairwise fun lead other => lead.edge.index < other.edge.index := by
    have ascending : ((patch.leads placed).map (·.edge.index)).Pairwise (· < ·) := by
      rw [ids, List.pairwise_map]
      exact Patch.liveEdges_pairwise
    exact List.pairwise_map.mp ascending
  have ends : ∀ lead ∈ patch.leads placed, ∃ place, placed[lead.dest]? = some place ∧
      lead.destPort < (Node.inputs place.node).length := by
    intro lead among
    obtain ⟨_, _, stands⟩ := exists_of_mem_right stand among
    obtain ⟨place, item, _, inside⟩ := stands.dest
    exact ⟨place, item, inside⟩
  simp only [wiring, Lead.sort_eq_flatMap numbered ends, leadsByNode_eq, ← List.flatMap_def, leadsByPort_eq,
    List.map_map, Function.comp_def]

theorem leadsInto_stand (placement : Placement patch placed)
    (fits : ∀ id edge, patch.edge? id = some edge → patch.Fits edge) {position port : Nat} {place : Placed ν}
    (item : placed[position]? = some place) :
    List.Forall₂ (Lead.Stands patch placed) (patch.edgesInto place.id port)
      (leadsInto (patch.leads placed) position port) := by
  refine List.rel_filter ?_ (Patch.leads_stand placement fits)
  rintro ⟨id, edge⟩ lead stands
  obtain ⟨_, ends, there, _⟩ := stands.dest
  have node : edge.dest = place.id ↔ lead.dest = position := by
    constructor
    · exact fun same => placement.position_unique ends item (there.trans same)
    · rintro rfl
      rw [item] at ends
      cases ends
      exact there.symm
  simp [node, stands.port]

structure Wired (patch : Patch ν) (placed : List (Placed ν)) (wires : List (List (List Wire))) :
    Prop where
  length : wires.length = placed.length
  ports : ∀ {position : Nat} {place}, placed[position]? = some place → ∃ ports,
    wires[position]? = some ports ∧ ports.length = (Node.inputs place.node).length ∧
    ∀ (port : Nat) row, ports[port]? = some row →
      List.Forall₂ (fun entry wire => Wire.Carries patch placed entry.2 wire)
        (patch.edgesInto place.id port) row

theorem wiring_wired (placement : Placement patch placed)
    (fits : ∀ id edge, patch.edge? id = some edge → patch.Fits edge) :
    Wired patch placed (wiring patch placed) := by
  rw [wiring_eq placement fits]
  refine ⟨by simp, fun {position place} item => ⟨(List.range (Node.inputs place.node).length).map fun port =>
    (leadsInto (patch.leads placed) position port).map Lead.wire, by simp [item], by simp, ?_⟩⟩
  intro port row found
  simp only [List.getElem?_map, Option.map_eq_some_iff] at found
  obtain ⟨same, inRange, rfl⟩ := found
  obtain rfl : port = same := by
    obtain ⟨_, equal⟩ := List.getElem?_eq_some_iff.mp inRange
    simpa using equal
  rw [List.forall₂_map_right_iff]
  exact (leadsInto_stand placement fits item).imp fun _ _ stands => stands.carries

namespace Wired

variable {wires : List (List (List Wire))} (wired : Wired patch placed wires)
include wired

theorem exists_edge {position : Nat} {place : Placed ν} {wire : Wire}
    (item : placed[position]? = some place) (member : wire ∈ (wires[position]?.getD []).flatten) :
    ∃ id edge, patch.edge? id = some edge ∧ edge.dest = place.id ∧
      Wire.Carries patch placed edge wire := by
  obtain ⟨ports, found, _, rows⟩ := wired.ports item
  rw [found, Option.getD_some, List.mem_flatten] at member
  obtain ⟨row, inPorts, inRow⟩ := member
  obtain ⟨port, atPort⟩ := List.mem_iff_getElem?.mp inPorts
  obtain ⟨⟨id, edge⟩, among, carries⟩ := exists_of_mem_right (rows port row atPort) inRow
  obtain ⟨found, into, _⟩ := Patch.mem_edgesInto.mp among
  exact ⟨id, edge, found, into, carries⟩

theorem exists_wire {position : Nat} {place : Placed ν} {id : EdgeId} {edge : Edge}
    (item : placed[position]? = some place) (found : patch.edge? id = some edge)
    (fits : patch.Fits edge) (placement : Placement patch placed) (dest : edge.dest = place.id) :
    ∃ wire ∈ (wires[position]?.getD []).flatten, Wire.Carries patch placed edge wire := by
  obtain ⟨ports, atPosition, count, rows⟩ := wired.ports item
  obtain ⟨_, input, _, ⟨node, present, atPort⟩, _⟩ := fits
  rw [dest, placement.present place (List.mem_of_getElem? item)] at present
  cases present
  have inside : edge.destPort < ports.length := by
    rw [count]
    exact (List.getElem?_eq_some_iff.mp atPort).1
  have member : (id, edge) ∈ patch.edgesInto place.id edge.destPort :=
    Patch.mem_edgesInto.mpr ⟨found, dest, rfl⟩
  obtain ⟨wire, inRow, carries⟩ := exists_of_mem_left (rows _ _ (List.getElem?_eq_getElem inside)) member
  refine ⟨wire, ?_, carries⟩
  rw [atPosition, Option.getD_some, List.mem_flatten]
  exact ⟨_, List.getElem_mem inside, inRow⟩

end Wired

end Patchbay
