import Patchbay.Proofs.Mixer.Sweeps

/-! What the check of a mixer's routing accepts, and which buses have no place.

The order of the buses leaves over those on a loop of several buses and those that such
a loop leads to, in any mixer. A mixer is accepted if all that it feeds is there, no bus
feeds itself and no bus is left over. All parts have a place in the render order
in any case, the tracks first and the master last.
-/

set_option autoImplicit false

namespace Patchbay

open Relation

theorem MixerStrip.exists_cable {strip : MixerStrip} {source : MixerNode} {bus : BusId} :
    (∃ cable ∈ strip.cables source, cable.dest = .bus bus) ↔ bus ∈ strip.targets := by
  simp only [cables, targets, List.mem_cons, List.mem_map, List.mem_append]
  cases strip.output with
  | master => simp [OutputTarget.node]
  | bus id => simp [OutputTarget.node, eq_comm]

namespace Mixer

variable {mixer : Mixer}

theorem feeds_bus_iff {source : MixerNode} {dest : BusId} : mixer.Feeds source (.bus dest) ↔
    (∃ entry ∈ mixer.tracks, source = .track entry.1 ∧ dest ∈ entry.2.strip.targets) ∨
      ∃ entry ∈ mixer.buses, source = .bus entry.1 ∧ dest ∈ entry.2.targets := by
  constructor
  · intro feeds
    rcases feeds.cases with ⟨entry, member, same, onward⟩ | ⟨entry, member, same, onward⟩
    · exact .inl ⟨entry, member, same, by simpa using onward⟩
    · exact .inr ⟨entry, member, same, by simpa using onward⟩
  · rintro (⟨entry, member, rfl, target⟩ | ⟨entry, member, rfl, target⟩)
    · obtain ⟨cable, sent, leads⟩ := MixerStrip.exists_cable.mpr target
      exact ⟨cable, mem_cables.mpr (.inl ⟨_, _, member, sent⟩), (MixerStrip.of_mem_cables sent).1, leads⟩
    · obtain ⟨cable, sent, leads⟩ := MixerStrip.exists_cable.mpr target
      exact ⟨cable, mem_cables.mpr (.inr ⟨_, _, member, sent⟩), (MixerStrip.of_mem_cables sent).1, leads⟩

def Passes (mixer : Mixer) (source dest : BusId) : Prop := mixer.Feeds (.bus source) (.bus dest)

theorem passes_iff {source dest : BusId} :
    mixer.Passes source dest ↔ ∃ entry ∈ mixer.buses, source = entry.1 ∧ dest ∈ entry.2.targets := by
  unfold Passes
  simp [feeds_bus_iff]

/-! ## What is accepted -/

/-- Taken one by one, the outputs and sends are right: each leads to a bus that is there,
and not back to the bus that it comes from. -/
structure Wired (mixer : Mixer) : Prop where
  apart : ∀ id, ¬ mixer.Passes id id
  present : ∀ source id, mixer.Feeds source (.bus id) → mixer.Has (.bus id)

structure Routed (mixer : Mixer) : Prop extends Wired mixer where
  acyclic : ∀ id, ¬ TransGen mixer.Passes id id

theorem wired_iff : mixer.Wired ↔
    (∀ entry ∈ mixer.tracks, ∀ bus ∈ entry.2.strip.targets, mixer.hasBus bus = true) ∧
      ∀ entry ∈ mixer.buses, ∀ bus ∈ entry.2.targets, bus ≠ entry.1 ∧ mixer.hasBus bus = true := by
  constructor
  · intro wired
    constructor
    · intro entry member bus target
      exact hasBus_iff.mpr (wired.present _ bus (feeds_bus_iff.mpr (.inl ⟨entry, member, rfl, target⟩)))
    · intro entry member bus target
      refine ⟨?_, hasBus_iff.mpr (wired.present _ bus (feeds_bus_iff.mpr (.inr ⟨entry, member, rfl, target⟩)))⟩
      rintro rfl
      exact wired.apart entry.1 (passes_iff.mpr ⟨entry, member, rfl, target⟩)
  · rintro ⟨tracks, buses⟩
    constructor
    · intro id passes
      obtain ⟨entry, member, same, target⟩ := passes_iff.mp passes
      exact (buses entry member id target).1 same
    · intro source id feeds
      apply hasBus_iff.mp
      rcases feeds_bus_iff.mp feeds with ⟨entry, member, _, target⟩ | ⟨entry, member, _, target⟩
      · exact tracks entry member id target
      · exact (buses entry member id target).2

theorem valid_iff : mixer.Valid ↔ mixer.Wired ∧ mixer.busOrder.2 = [] := by
  rw [wired_iff]
  constructor
  · intro valid
    exact ⟨⟨valid.tracks, valid.buses⟩, valid.placed⟩
  · rintro ⟨⟨tracks, buses⟩, placed⟩
    exact ⟨tracks, buses, placed⟩

/-! ## Which buses have no place -/

theorem busOrder_placed (mixer : Mixer) : mixer.busOrder.1 =
    BusOrder.sweeps mixer.busFeeders mixer.buses.length mixer.buses.length [] := by
  apply BusOrder.sweeps_congr
  intro bus inside
  simp [Array.getD_eq_getD_getElem?, inside]

theorem busOrder_sweepsTo (mixer : Mixer) :
    BusOrder.SweepsTo mixer.busFeeders mixer.buses.length [] mixer.busOrder.1 := by
  rw [busOrder_placed]
  apply BusOrder.sweepsTo_sweeps .nil
  simp

theorem mem_stuck {index : Nat} :
    index ∈ mixer.busOrder.2 ↔ index < mixer.buses.length ∧ index ∉ mixer.busOrder.1 := by
  have stuck : mixer.busOrder.2 = (List.range mixer.buses.length).filter (!mixer.busOrder.1.contains ·) := rfl
  rw [stuck, List.mem_filter, List.mem_range, Bool.not_eq_true', List.contains_eq_mem, decide_eq_false_iff_not]

def idsAt (mixer : Mixer) (positions : List Nat) : List BusId :=
  positions.filterMap fun index => mixer.buses[index]?.map (·.1)

theorem mem_idsAt {positions : List Nat} {id : BusId} : id ∈ mixer.idsAt positions ↔
    ∃ index ∈ positions, ∃ entry, mixer.buses[index]? = some entry ∧ entry.1 = id := by
  simp [idsAt, List.mem_filterMap]

section

variable (numbered : mixer.Numbered)
include numbered

theorem Numbered.bus_unique {entry other : BusId × Bus} (here : entry ∈ mixer.buses) (there : other ∈ mixer.buses)
    (same : entry.1 = other.1) : entry = other :=
  List.inj_on_of_nodup_map numbered.bus_ids here there same

theorem mem_busFeeders_apart {source dest : Nat} {entry target : BusId × Bus}
    (atSource : mixer.buses[source]? = some entry) (atDest : mixer.buses[dest]? = some target) :
    source ∈ mixer.busFeeders dest ↔ Apart mixer.Passes entry.1 target.1 := by
  have feeds : mixer.Passes entry.1 target.1 ↔ target.1 ∈ entry.2.targets := by
    rw [passes_iff]
    constructor
    · rintro ⟨other, member, same, goal⟩
      rwa [numbered.bus_unique (List.mem_of_getElem? atSource) member same]
    · intro goal
      exact ⟨entry, List.mem_of_getElem? atSource, rfl, goal⟩
  rw [mem_busFeeders numbered atSource atDest, Apart, feeds, ne_comm]

/-- A bus that has no place waits for another one that has none. -/
theorem stuck_fed {index : Nat} {entry : BusId × Bus} (found : mixer.buses[index]? = some entry)
    (stuck : index ∈ mixer.busOrder.2) : ∃ (position : Nat) (other : BusId × Bus),
      mixer.buses[position]? = some other ∧ position ∈ mixer.busOrder.2 ∧ Apart mixer.Passes other.1 entry.1 := by
  obtain ⟨inside, absent⟩ := mem_stuck.mp stuck
  obtain ⟨feeder, feeds, waiting⟩ := BusOrder.waits_of_sweep mixer.busOrder_sweepsTo.sweep_eq inside absent
  have there : feeder < mixer.buses.length := List.mem_range.mp (List.mem_filter.mp feeds).1
  have atFeeder : mixer.buses[feeder]? = some mixer.buses[feeder] := List.getElem?_eq_getElem there
  exact ⟨feeder, _, atFeeder, mem_stuck.mpr ⟨there, waiting⟩, (mem_busFeeders_apart numbered atFeeder found).mp feeds⟩

theorem placed_free {index : Nat} (placed : index ∈ mixer.busOrder.1) :
    ∀ entry, mixer.buses[index]? = some entry → ¬ OnOrBehind (Apart mixer.Passes) entry.1 := by
  have respects : RenderOrder.Respects mixer.busFeeders mixer.busOrder.1 := by
    rw [busOrder_placed]
    exact BusOrder.sweeps_respects .nil _ _
  -- A bus that is fed from behind a loop would have to wait for a bus that is so too.
  refine respects.forall (motive := fun index => ∀ entry, mixer.buses[index]? = some entry →
    ¬ OnOrBehind (Apart mixer.Passes) entry.1) ?_ index placed
  intro index free entry found behind
  obtain ⟨source, passes, sooner⟩ := behind.fed
  obtain ⟨other, member, rfl, _⟩ := passes_iff.mp passes.2
  obtain ⟨position, atSource⟩ := List.mem_iff_getElem?.mp member
  exact free position ((mem_busFeeders_apart numbered atSource found).mpr passes) other atSource sooner

/-- The buses that have no place are those on a loop and those that a loop leads to. -/
theorem mem_stuck_iff {index : Nat} : index ∈ mixer.busOrder.2 ↔
    ∃ entry, mixer.buses[index]? = some entry ∧ OnOrBehindLoop mixer.Passes entry.1 := by
  simp only [onOrBehindLoop_iff]
  constructor
  · intro stuck
    have inside := (mem_stuck.mp stuck).1
    have found : mixer.buses[index]? = some mixer.buses[index] := List.getElem?_eq_getElem inside
    -- Finitely many buses each of which waits for another one of them.
    refine ⟨_, found, onOrBehind_of_fed ?_ (mem_idsAt.mpr ⟨index, stuck, _, found, rfl⟩)⟩
    intro id member
    obtain ⟨position, stuck, entry, found, rfl⟩ := mem_idsAt.mp member
    obtain ⟨source, other, atSource, waiting, passes⟩ := stuck_fed numbered found stuck
    exact ⟨other.1, mem_idsAt.mpr ⟨source, waiting, other, atSource, rfl⟩, passes⟩
  · rintro ⟨entry, found, behind⟩
    rw [mem_stuck]
    refine ⟨(List.getElem?_eq_some_iff.mp found).1, ?_⟩
    intro placed
    exact placed_free numbered placed entry found behind

theorem stuck_eq_nil_iff (apart : ∀ id, ¬ mixer.Passes id id) :
    mixer.busOrder.2 = [] ↔ ∀ id, ¬ TransGen mixer.Passes id id := by
  have all : ∀ source dest, mixer.Passes source dest → Apart mixer.Passes source dest := by
    intro source dest passes
    refine ⟨?_, passes⟩
    rintro rfl
    exact apart source passes
  simp only [List.eq_nil_iff_forall_not_mem, mem_stuck_iff numbered, onOrBehindLoop_iff]
  constructor
  · intro free id cycle
    obtain ⟨_, first, _⟩ := TransGen.head'_iff.mp cycle
    obtain ⟨entry, member, rfl, _⟩ := passes_iff.mp first
    obtain ⟨index, found⟩ := List.mem_iff_getElem?.mp member
    exact free index ⟨entry, found, entry.1, TransGen.mono all _ _ cycle, .refl⟩
  · rintro acyclic index ⟨entry, _, origin, cycle, _⟩
    exact acyclic origin (TransGen.mono (fun _ _ => And.right) _ _ cycle)

theorem validate_iff : mixer.validate = .ok () ↔ mixer.Routed := by
  rw [validate_eq_ok, valid_iff]
  constructor
  · rintro ⟨wired, placed⟩
    exact { wired with acyclic := (stuck_eq_nil_iff numbered wired.apart).mp placed }
  · intro routed
    exact ⟨routed.toWired, (stuck_eq_nil_iff numbered routed.apart).mpr routed.acyclic⟩

end

/-! ## The order of all parts -/

theorem idsAt_range (mixer : Mixer) : mixer.idsAt (List.range mixer.buses.length) = mixer.buses.map (·.1) := by
  unfold idsAt
  generalize mixer.buses = buses
  induction buses with
  | nil => rfl
  | cons entry rest ih => simpa [List.range_succ_eq_map, List.filterMap_map, Function.comp_def] using ih

theorem renderOrder_eq (mixer : Mixer) : mixer.renderOrder = mixer.tracks.map (.track ·.1)
    ++ (mixer.idsAt (mixer.busOrder.1 ++ mixer.busOrder.2)).map .bus ++ [.master] := by
  unfold renderOrder idsAt
  rw [List.map_filterMap]
  simp [Function.comp_def]

theorem busOrder_perm (mixer : Mixer) :
    (mixer.busOrder.1 ++ mixer.busOrder.2).Perm (List.range mixer.buses.length) := by
  have places : BusOrder.Places mixer.buses.length mixer.busOrder.1 := by
    rw [busOrder_placed]
    exact BusOrder.places_sweeps .nil
  have nodup : (mixer.busOrder.1 ++ mixer.busOrder.2).Nodup := by
    apply places.nodup.append (List.nodup_range.filter _)
    intro bus placed stuck
    exact (mem_stuck.mp stuck).2 placed
  -- Without repetition on both sides, it is enough that the same buses occur.
  rw [List.perm_ext_iff_of_nodup nodup List.nodup_range]
  intro bus
  rw [List.mem_append, List.mem_range, mem_stuck]
  constructor
  · rintro (placed | ⟨inside, _⟩)
    · exact places.below bus placed
    · exact inside
  · intro inside
    by_cases placed : bus ∈ mixer.busOrder.1
    · exact .inl placed
    · exact .inr ⟨inside, placed⟩

theorem idsAt_perm (mixer : Mixer) :
    (mixer.idsAt (mixer.busOrder.1 ++ mixer.busOrder.2)).Perm (mixer.buses.map (·.1)) :=
  mixer.idsAt_range ▸ mixer.busOrder_perm.filterMap _

theorem placed_split {before after : List Nat} {index : Nat}
    (split : mixer.busOrder.1 ++ mixer.busOrder.2 = before ++ index :: after) (free : index ∉ mixer.busOrder.2) :
    ∃ rest, mixer.busOrder.1 = before ++ index :: rest := by
  -- The position stands behind the place where the two lists meet, at it, or before it.
  rcases List.append_eq_append_iff.mp split with ⟨_, _, stuck⟩ | ⟨more, placed, rest⟩
  · exact absurd (stuck ▸ List.mem_append_right _ List.mem_cons_self) free
  · cases more with
    | nil =>
      rw [List.nil_append] at rest
      exact absurd (rest ▸ List.mem_cons_self) free
    | cons first later =>
      cases rest
      exact ⟨later, placed⟩

/-- A bus that no loop leads to comes behind all other buses that feed it. -/
theorem idsAt_behind (numbered : mixer.Numbered) {before after : List BusId} {id : BusId}
    (split : mixer.idsAt (mixer.busOrder.1 ++ mixer.busOrder.2) = before ++ id :: after)
    (free : ¬ OnOrBehindLoop mixer.Passes id) {source : BusId} (passes : Apart mixer.Passes source id) :
    source ∈ before := by
  -- The cut in the list of ids comes from a cut in the list of positions.
  obtain ⟨first, rest, whole, rfl, later⟩ := List.filterMap_eq_append_iff.mp split
  obtain ⟨skipped, index, last, rfl, absent, here, _⟩ := List.filterMap_eq_cons_iff.mp later
  obtain ⟨entry, found, rfl⟩ := Option.map_eq_some_iff.mp here
  have unstuck : index ∉ mixer.busOrder.2 := by
    intro stuck
    obtain ⟨other, found', behind⟩ := (mem_stuck_iff numbered).mp stuck
    rw [found] at found'
    cases found'
    exact free behind
  rw [← List.append_assoc] at whole
  obtain ⟨rest, placed⟩ := placed_split whole unstuck
  obtain ⟨other, member, rfl, _⟩ := passes_iff.mp passes.2
  obtain ⟨position, atSource⟩ := List.mem_iff_getElem?.mp member
  have sooner := busOrder_respects (List.getElem?_eq_some_iff.mp found).1 placed
    ((mem_busFeeders_apart numbered atSource found).mpr passes)
  -- The feeder is not among the positions that give no id.
  rcases List.mem_append.mp sooner with early | none
  · exact List.mem_filterMap.mpr ⟨position, early, by rw [atSource]; rfl⟩
  · have missing := absent position none
    rw [atSource] at missing
    cases missing

theorem renderOrder_nodup (numbered : mixer.Numbered) : mixer.renderOrder.Nodup := by
  have tracks : (mixer.tracks.map (MixerNode.track ·.1)).Nodup := by
    simpa [Function.comp_def] using numbered.track_ids.map fun _ _ same => MixerNode.track.inj same
  have buses := (mixer.idsAt_perm.nodup_iff.mpr numbered.bus_ids).map fun _ _ same => MixerNode.bus.inj same
  rw [renderOrder_eq]
  apply (tracks.append buses _).append (List.nodup_singleton _)
  · intro node member last
    rw [List.mem_singleton.mp last] at member
    simp at member
  · intro node first second
    obtain ⟨entry, _, rfl⟩ := List.mem_map.mp first
    simp at second

/-- The check of a mixer accepts just the mixers that are routed well. In any mixer the
order of the buses comes to an end and leaves over those on a loop of several buses
or behind one, and the render order lists all tracks as they were added, all buses and
the master, where a bus that is not left over comes behind all others that feed it. -/
theorem routing_exact (built : mixer.Built) :
    (mixer.validate = .ok () ↔ mixer.Routed) ∧
    (BusOrder.SweepsTo mixer.busFeeders mixer.buses.length [] mixer.busOrder.1 ∧
      ∀ index, index ∈ mixer.busOrder.2 ↔
        ∃ entry, mixer.buses[index]? = some entry ∧ OnOrBehindLoop mixer.Passes entry.1) ∧
    mixer.renderOrder.Nodup ∧ ∃ order : List BusId, order.Perm (mixer.buses.map (·.1)) ∧
      mixer.renderOrder = mixer.tracks.map (.track ·.1) ++ order.map .bus ++ [.master] ∧
      ∀ before id after, order = before ++ id :: after → ¬ OnOrBehindLoop mixer.Passes id →
        ∀ source, source ≠ id → mixer.Passes source id → source ∈ before := by
  have numbered := built.numbered
  refine ⟨validate_iff numbered, ⟨mixer.busOrder_sweepsTo, fun index => mem_stuck_iff numbered⟩,
    renderOrder_nodup numbered, _, mixer.idsAt_perm, mixer.renderOrder_eq, ?_⟩
  intro before id after split free source other passes
  exact idsAt_behind numbered split free ⟨other, passes⟩

/-- Two buses that feed each other, one of which feeds a third one that also feeds
itself. The last bus was for a track and is gone. -/
def tangled : Mixer :=
  (Mixer.empty 2).addBus { name := "echo", output := .bus ⟨1⟩ } |>.2
    |>.addBus { name := "chorus", output := .bus ⟨0⟩, sends := [⟨⟨2⟩, 1, false⟩] } |>.2
    |>.addBus { name := "group", sends := [⟨⟨2⟩, 1, true⟩] } |>.2
    |>.addBus { name := "drums", sends := [⟨⟨2⟩, 1, false⟩] } |>.2
    |>.addBus { name := "spare" } |>.2
    |>.addTrack { strip := { name := "lead", output := .bus ⟨4⟩ } } |>.2
    |>.removeBus ⟨4⟩ |>.2

theorem tangled_built : tangled.Built :=
  .removeBus _ (.addTrack _ (.addBus _ (.addBus _ (.addBus _ (.addBus _ (.addBus _ (.empty 2)))))))

theorem tangled_routing : tangled.Built ∧ ¬ tangled.Routed ∧
    (∀ index, index ∈ [0, 1, 2] ↔
      ∃ entry, tangled.buses[index]? = some entry ∧ OnOrBehindLoop tangled.Passes entry.1) ∧
    tangled.renderOrder = [.track ⟨0⟩, .bus ⟨3⟩, .bus ⟨0⟩, .bus ⟨1⟩, .bus ⟨2⟩, .master] := by
  have refused : tangled.validate ≠ .ok () := by decide +kernel
  have left : tangled.busOrder.2 = [0, 1, 2] := by decide +kernel
  obtain ⟨accepts, ⟨_, stuck⟩, _⟩ := routing_exact tangled_built
  rw [left] at stuck
  exact ⟨tangled_built, mt accepts.mpr refused, stuck, by decide +kernel⟩

end Mixer

end Patchbay
