import Mathlib.Logic.Relation
import Patchbay.Plan.Monitor
import Patchbay.Proofs.Render.Arrival

/-! Latency reports and refreshes side by side.

The renderer reports a latency in two steps: it stores the value, then it marks
the state. A compensator takes the mark back, if it is to refresh only where
needed, reads one latency after another, aligns the graph and publishes one
delay after another. The steps of the two may fall among each other in any
order. A latency that is stored too late for a refresh leaves a mark behind it,
so whenever no mark is left and nothing is under way, what is published belongs
to what was reported.
-/

set_option autoImplicit false

namespace Patchbay

inductive Refresh where
  /-- Nothing is under way; the last alignment may have ended in a fault. -/
  | idle (fault : Option Fault)
  /-- The first latencies are read. -/
  | reading (seen : Array Nat)
  /-- The delays of the first nodes are published. -/
  | publishing (alignment : Alignment) (next : Nat)
  /-- Those of all nodes are, and those of the first links. -/
  | linking (alignment : Alignment) (next : Nat)

/-- A plan's monitor between a renderer and a compensator. -/
structure Exchange where
  monitor : Monitor
  /-- Reports that have stored their latency and have yet to mark it. -/
  unmarked : Nat
  refresh : Refresh

namespace Exchange

def put (exchange : Exchange) (latencies : Latencies) : Exchange :=
  { exchange with monitor := { exchange.monitor with latencies } }

/-- One step of a report or of a refresh. To refresh where no mark is needs no
step. -/
inductive Step (exchange : Exchange) : Exchange → Prop where
  | store {position old samples : Nat} {intrinsic : Array Nat} :
      itemAt exchange.monitor.latencies.intrinsic position = .ok old → old ≠ samples →
      replaceAt exchange.monitor.latencies.intrinsic position samples = .ok intrinsic →
      Step exchange { exchange.put { exchange.monitor.latencies with intrinsic } with
        unmarked := exchange.unmarked + 1 }
  | mark {others : Nat} : exchange.unmarked = others + 1 →
      Step exchange { exchange.put { exchange.monitor.latencies with dirty := true } with unmarked := others }
  | take {fault : Option Fault} : exchange.refresh = .idle fault → exchange.monitor.latencies.dirty = true →
      Step exchange { exchange.put { exchange.monitor.latencies with dirty := false } with
        refresh := .reading #[] }
  | start {fault : Option Fault} : exchange.refresh = .idle fault →
      Step exchange { exchange with refresh := .reading #[] }
  | read {seen : Array Nat} {latency : Nat} : exchange.refresh = .reading seen →
      itemAt exchange.monitor.latencies.intrinsic seen.size = .ok latency →
      Step exchange { exchange with refresh := .reading (seen.push latency) }
  | align {seen : Array Nat} {alignment : Alignment} : exchange.refresh = .reading seen →
      seen.size = exchange.monitor.latencies.intrinsic.size →
      exchange.monitor.graph.align seen = .ok alignment →
      Step exchange { exchange with refresh := .publishing alignment 0 }
  | abort {seen : Array Nat} {fault : Fault} : exchange.refresh = .reading seen →
      seen.size = exchange.monitor.latencies.intrinsic.size →
      exchange.monitor.graph.align seen = .error fault →
      Step exchange { exchange with refresh := .idle (some fault) }
  | publish {alignment : Alignment} {next samples : Nat} {latencies : Latencies} :
      exchange.refresh = .publishing alignment next → itemAt alignment.values next = .ok samples →
      exchange.monitor.latencies.publish next samples = .ok latencies →
      Step exchange { exchange.put latencies with refresh := .publishing alignment (next + 1) }
  | turn {alignment : Alignment} : exchange.refresh = .publishing alignment alignment.values.size →
      Step exchange { exchange with refresh := .linking alignment 0 }
  | publishLink {alignment : Alignment} {next samples : Nat} {latencies : Latencies} :
      exchange.refresh = .linking alignment next → itemAt alignment.links next = .ok samples →
      exchange.monitor.latencies.publishLink next samples = .ok latencies →
      Step exchange { exchange.put latencies with refresh := .linking alignment (next + 1) }
  | finish {alignment : Alignment} : exchange.refresh = .linking alignment alignment.links.size →
      Step exchange { exchange with
        monitor := { exchange.monitor with
          misaligned := countMisaligned alignment.links exchange.monitor.latencies.linkCapacity }
        refresh := .idle none }

/-- No mark is left, and none is due. -/
def Unmarked (exchange : Exchange) : Prop :=
  exchange.monitor.latencies.dirty = false ∧ exchange.unmarked = 0

def around (monitor : Monitor) : Exchange := ⟨monitor, 0, .idle none⟩

end Exchange

/-! ## What a refresh knows -/

def AgreeBelow (items wanted : Array Nat) (next : Nat) : Prop :=
  items.size = wanted.size ∧ ∀ position < next, items[position]? = wanted[position]?

namespace AgreeBelow

variable {items wanted : Array Nat} {next : Nat}

theorem zero (sizes : items.size = wanted.size) : AgreeBelow items wanted 0 :=
  ⟨sizes, fun _ below => absurd below (Nat.not_lt_zero _)⟩

theorem replace {samples : Nat} {result : Array Nat} (agree : AgreeBelow items wanted next)
    (item : wanted[next]? = some samples) (replaced : replaceAt items next samples = .ok result) :
    AgreeBelow result wanted (next + 1) := by
  obtain ⟨inside, rfl⟩ := replaceAt_eq_ok.mp replaced
  refine ⟨by rw [Array.size_setIfInBounds, agree.1], fun position below => ?_⟩
  rw [Array.getElem?_setIfInBounds]
  split
  · rename_i here
    rw [← here, item]
  · exact agree.2 position (by omega)

theorem exists_replace {samples : Nat} (agree : AgreeBelow items wanted next) (item : wanted[next]? = some samples) :
    ∃ result, replaceAt items next samples = .ok result ∧ AgreeBelow result wanted (next + 1) := by
  have inside : next < items.size := agree.1 ▸ (Array.getElem?_eq_some_iff.mp item).1
  have replaced := replaceAt_eq_ok.mpr ⟨inside, Eq.refl (items.setIfInBounds next samples)⟩
  exact ⟨_, replaced, agree.replace item replaced⟩

theorem eq (agree : AgreeBelow items wanted wanted.size) : items = wanted := by
  refine Array.ext_getElem? fun position => ?_
  by_cases inside : position < wanted.size
  · exact agree.2 position inside
  · rw [Array.getElem?_eq_none (by have := agree.1; omega), Array.getElem?_eq_none (by omega)]

end AgreeBelow

namespace Refresh

def Written (latencies : Latencies) : Refresh → Prop
  | .idle _ | .reading _ => True
  | .publishing alignment next => AgreeBelow latencies.compensation alignment.values next ∧
      latencies.links.size = alignment.links.size
  | .linking alignment next => latencies.compensation = alignment.values ∧
      AgreeBelow latencies.links alignment.links next

/-- What has been read is what is reported, and what is published is aligned to
it or will be. -/
def Current (monitor : Monitor) : Refresh → Prop
  | .idle none => ∃ alignment, monitor.graph.align monitor.latencies.intrinsic = .ok alignment ∧
      monitor.latencies.compensation = alignment.values ∧ monitor.latencies.links = alignment.links
  | .idle (some fault) => monitor.graph.align monitor.latencies.intrinsic = .error fault
  | .reading seen => ∀ position < seen.size, seen[position]? = monitor.latencies.intrinsic[position]?
  | .publishing alignment _ | .linking alignment _ =>
      monitor.graph.align monitor.latencies.intrinsic = .ok alignment

theorem Current.seen_eq {monitor : Monitor} {seen : Array Nat} (current : (reading seen).Current monitor)
    (complete : seen.size = monitor.latencies.intrinsic.size) : seen = monitor.latencies.intrinsic :=
  AgreeBelow.eq ⟨complete, fun position below => current position (complete ▸ below)⟩

end Refresh

namespace Exchange

variable {exchange after : Exchange}

structure Sound (graph : LatencyGraph) (exchange : Exchange) : Prop where
  same : exchange.monitor.graph = graph
  inOrder : graph.Ordered
  waits : exchange.monitor.latencies.compensation.size = graph.size
  rests : exchange.monitor.latencies.links.size = graph.links.length
  written : exchange.refresh.Written exchange.monitor.latencies
  current : exchange.Unmarked → exchange.refresh.Current exchange.monitor

theorem Sound.around {ν : Type} [Node ν] {patch : Patch ν} {options : CompileOptions}
    {placed : List (Placed ν)} {survey : Survey} {plan : Plan ν}
    (compiled : CompiledFrom patch options placed survey plan) : (around plan.monitor).Sound plan.monitor.graph := by
  obtain ⟨_, _, _, _, _, assembled⟩ := compiled.assembled
  obtain ⟨alignment, aligns, compensation, links⟩ := assembled.published
  rw [← assembled.intrinsic, ← assembled.graph] at aligns
  have inOrder : plan.monitor.graph.Ordered := assembled.graph ▸ compiled.surveyed.inOrder
  have aligned := LatencyGraph.align_aligned inOrder aligns
  exact {
    same := rfl
    inOrder
    waits := (congrArg Array.size compensation).trans aligned.values_size
    rests := (congrArg Array.size links).trans aligned.links_size
    written := trivial
    current := fun _ => ⟨alignment, aligns, compensation, links⟩ }

variable {graph : LatencyGraph} (sound : exchange.Sound graph)
include sound

/-- A report that is under way or marked excuses whatever a refresh knows. -/
theorem Sound.step (step : exchange.Step after) : after.Sound graph := by
  cases step with
  -- Between its two steps, and while its mark stands, a report asks nothing of `current`.
  | store read changed stored => exact { sound with current := fun unmarked => nomatch unmarked.2 }
  | mark pending => exact { sound with current := fun unmarked => nomatch unmarked.1 }
  | take idle marked =>
    exact { sound with written := trivial, current := fun _ _ below => absurd below (Nat.not_lt_zero _) }
  | start idle =>
    exact { sound with written := trivial, current := fun _ _ below => absurd below (Nat.not_lt_zero _) }
  -- No report came since the refresh began, so what it reads now is of the same state.
  | @read seen latency reading item =>
    refine { sound with written := trivial, current := fun unmarked position below => ?_ }
    have known := sound.current unmarked
    rw [reading] at known
    rw [Array.size_push] at below
    rw [Array.getElem?_push]
    split
    · rename_i here
      rw [here, itemAt_eq_ok.mp item]
    · exact known position (by omega)
  | align reading complete aligns =>
    have aligned := LatencyGraph.align_aligned sound.inOrder (sound.same ▸ aligns)
    refine { sound with
      written := ⟨.zero (sound.waits.trans aligned.values_size.symm), sound.rests.trans aligned.links_size.symm⟩
      current := fun unmarked => ?_ }
    have known := sound.current unmarked
    rw [reading] at known
    rwa [known.seen_eq complete] at aligns
  | abort reading complete faults =>
    refine { sound with written := trivial, current := fun unmarked => ?_ }
    have known := sound.current unmarked
    rw [reading] at known
    rwa [known.seen_eq complete] at faults
  | publish publishing item published =>
    simp only [Latencies.publish, bind_eq_ok, pure_eq_ok] at published
    obtain ⟨compensation, replaced, rfl⟩ := published
    have written := sound.written
    have known := sound.current
    rw [publishing] at written known
    have agree := written.1.replace (itemAt_eq_ok.mp item) replaced
    exact { sound with
      waits := agree.1.trans (written.1.1.symm.trans sound.waits)
      written := ⟨agree, written.2⟩
      current := known }
  | turn publishing =>
    have written := sound.written
    have known := sound.current
    rw [publishing] at written known
    exact { sound with written := ⟨written.1.eq, .zero written.2⟩, current := known }
  | publishLink linking item published =>
    simp only [Latencies.publishLink, bind_eq_ok, pure_eq_ok] at published
    obtain ⟨links, replaced, rfl⟩ := published
    have written := sound.written
    have known := sound.current
    rw [linking] at written known
    have agree := written.2.replace (itemAt_eq_ok.mp item) replaced
    exact { sound with
      rests := agree.1.trans (written.2.1.symm.trans sound.rests)
      written := ⟨written.1, agree⟩
      current := known }
  -- Both lists are written to the end, so they are the alignment's.
  | finish linking =>
    have written := sound.written
    have known := sound.current
    rw [linking] at written known
    exact { sound with
      written := trivial
      current := fun unmarked => ⟨_, known unmarked, written.1, written.2.eq⟩ }

theorem Sound.steps (steps : Relation.ReflTransGen Step exchange after) : after.Sound graph := by
  induction steps with
  | refl => exact sound
  | tail _ step ih => exact ih.step step

end Exchange

/-! ## Whole reports and refreshes -/

namespace Exchange

open Relation (ReflTransGen)

variable {exchange : Exchange}

theorem report_steps {position samples : Nat} {changed : Bool} {latencies : Latencies}
    (answer : exchange.monitor.latencies.report position samples = .ok (changed, latencies)) :
    ReflTransGen Step exchange (exchange.put latencies) := by
  simp only [Latencies.report, bind_eq_ok] at answer
  obtain ⟨old, read, answer⟩ := answer
  split at answer
  · cases answer
    exact .refl
  · rename_i differs
    simp only [bind_eq_ok, pure_eq_ok, Prod.mk.injEq] at answer
    obtain ⟨intrinsic, stored, rfl, rfl⟩ := answer
    exact .tail (.single (.store read differs stored)) (.mark rfl)

theorem read_steps {monitor : Monitor} {unmarked : Nat} (count : Nat) {seen : Array Nat}
    (left : seen.size + count = monitor.latencies.intrinsic.size)
    (known : (Refresh.reading seen).Current monitor) :
    ReflTransGen Step ⟨monitor, unmarked, .reading seen⟩
      ⟨monitor, unmarked, .reading monitor.latencies.intrinsic⟩ := by
  induction count generalizing seen with
  | zero =>
    rw [known.seen_eq left]
  | succ count ih =>
    have item : itemAt monitor.latencies.intrinsic seen.size = .ok monitor.latencies.intrinsic[seen.size] :=
      itemAt_eq_ok.mpr (Array.getElem?_eq_getElem _)
    refine .head (.read rfl item) (ih ?_ ?_)
    · rw [Array.size_push]
      omega
    · intro position below
      rw [Array.size_push] at below
      rw [Array.getElem?_push]
      split
      · rename_i here
        rw [here, itemAt_eq_ok.mp item]
      · exact known position (by omega)

theorem readAll_steps (monitor : Monitor) (unmarked : Nat) :
    ReflTransGen Step ⟨monitor, unmarked, .reading #[]⟩
      ⟨monitor, unmarked, .reading monitor.latencies.intrinsic⟩ :=
  read_steps monitor.latencies.intrinsic.size (Nat.zero_add _) fun _ below => absurd below (Nat.not_lt_zero _)

theorem publish_steps (monitor : Monitor) (unmarked : Nat) {alignment : Alignment} (count : Nat) {next : Nat}
    (left : next + count = alignment.values.size)
    (agree : AgreeBelow monitor.latencies.compensation alignment.values next) :
    ReflTransGen Step ⟨monitor, unmarked, .publishing alignment next⟩
      ⟨{ monitor with latencies := { monitor.latencies with compensation := alignment.values } }, unmarked,
        .publishing alignment alignment.values.size⟩ := by
  induction count generalizing monitor next with
  | zero =>
    cases left
    rw [← agree.eq]
    exact .refl
  | succ count ih =>
    have item : alignment.values[next]? = some alignment.values[next] := Array.getElem?_eq_getElem _
    obtain ⟨compensation, replaced, further⟩ := agree.exists_replace item
    have published : monitor.latencies.publish next alignment.values[next] =
        .ok { monitor.latencies with compensation } := by
      simp only [Latencies.publish, replaced, ok_bind]
      rfl
    exact .head (.publish rfl (itemAt_eq_ok.mpr item) published) (ih _ (by omega) further)

theorem publishLink_steps (monitor : Monitor) (unmarked : Nat) {alignment : Alignment} (count : Nat) {next : Nat}
    (left : next + count = alignment.links.size)
    (agree : AgreeBelow monitor.latencies.links alignment.links next) :
    ReflTransGen Step ⟨monitor, unmarked, .linking alignment next⟩
      ⟨{ monitor with latencies := { monitor.latencies with links := alignment.links } }, unmarked,
        .linking alignment alignment.links.size⟩ := by
  induction count generalizing monitor next with
  | zero =>
    cases left
    rw [← agree.eq]
    exact .refl
  | succ count ih =>
    have item : alignment.links[next]? = some alignment.links[next] := Array.getElem?_eq_getElem _
    obtain ⟨links, replaced, further⟩ := agree.exists_replace item
    have published : monitor.latencies.publishLink next alignment.links[next] =
        .ok { monitor.latencies with links } := by
      simp only [Latencies.publishLink, replaced, ok_bind]
      rfl
    exact .head (.publishLink rfl (itemAt_eq_ok.mpr item) published) (ih _ (by omega) further)

theorem Sound.align_steps {graph : LatencyGraph} {monitor : Monitor} {unmarked : Nat} {seen : Array Nat}
    {alignment : Alignment} (sound : Sound graph ⟨monitor, unmarked, .reading seen⟩)
    (complete : seen.size = monitor.latencies.intrinsic.size) (aligns : monitor.graph.align seen = .ok alignment) :
    ReflTransGen Step ⟨monitor, unmarked, .reading seen⟩
      ⟨{ monitor with
        latencies := { monitor.latencies with compensation := alignment.values, links := alignment.links }
        misaligned := countMisaligned alignment.links monitor.latencies.linkCapacity }, unmarked, .idle none⟩ := by
  have aligned := LatencyGraph.align_aligned sound.inOrder (sound.same ▸ aligns)
  have nodes := publish_steps monitor unmarked alignment.values.size (Nat.zero_add _)
    (.zero (sound.waits.trans aligned.values_size.symm))
  have links := publishLink_steps
    { monitor with latencies := { monitor.latencies with compensation := alignment.values } } unmarked
    alignment.links.size (Nat.zero_add _) (.zero (sound.rests.trans aligned.links_size.symm))
  exact .head (.align rfl complete aligns) ((nodes.tail (.turn rfl)).trans (links.tail (.finish rfl)))

/-- A refresh is a run of steps. -/
theorem Sound.refresh_steps {graph : LatencyGraph} {monitor refreshed : Monitor} {unmarked : Nat}
    {fault : Option Fault} {report : RefreshReport} (sound : Sound graph ⟨monitor, unmarked, .idle fault⟩)
    (answer : monitor.refresh = .ok (report, refreshed)) :
    ReflTransGen Step ⟨monitor, unmarked, .idle fault⟩ ⟨refreshed, unmarked, .idle none⟩ := by
  obtain ⟨alignment, aligns, rfl⟩ := Monitor.refresh_spec answer
  have reads : ReflTransGen Step ⟨monitor, unmarked, .idle fault⟩
      ⟨monitor, unmarked, .reading monitor.latencies.intrinsic⟩ :=
    .head (.start rfl) (readAll_steps _ _)
  exact reads.trans ((sound.steps reads).align_steps rfl aligns)

theorem Sound.refreshIfDirty_steps {graph : LatencyGraph} {monitor refreshed : Monitor} {unmarked : Nat}
    {fault : Option Fault} {report : Option RefreshReport} (sound : Sound graph ⟨monitor, unmarked, .idle fault⟩)
    (answer : monitor.refreshIfDirty = .ok (report, refreshed)) :
    ReflTransGen Step ⟨monitor, unmarked, .idle fault⟩
      ⟨refreshed, unmarked, .idle (if monitor.latencies.dirty then none else fault)⟩ := by
  rcases Monitor.refreshIfDirty_cases answer with ⟨marked, alignment, aligns, rfl⟩ | ⟨clean, rfl⟩
  · rw [if_pos marked]
    have reads : ReflTransGen Step ⟨monitor, unmarked, .idle fault⟩
        ⟨{ monitor with latencies := { monitor.latencies with dirty := false } }, unmarked,
          .reading monitor.latencies.intrinsic⟩ :=
      .head (.take rfl marked) (readAll_steps _ _)
    exact reads.trans ((sound.steps reads).align_steps rfl aligns)
  · rw [clean, if_neg Bool.false_ne_true]

/-- What a refresh leaves, made from latencies that it read before others were stored. -/
def overtaken (monitor : Monitor) (intrinsic : Array Nat) (alignment : Alignment) : Monitor :=
  { monitor with
    latencies := { monitor.latencies with
      intrinsic, compensation := alignment.values, links := alignment.links, dirty := true }
    misaligned := countMisaligned alignment.links monitor.latencies.linkCapacity }

/-- A report that stores its latency behind the last read of a refresh, and marks
it when the refresh is over. -/
theorem Sound.overtaken_steps {graph : LatencyGraph} {monitor : Monitor} {fault : Option Fault}
    {position old samples : Nat} {intrinsic : Array Nat} {alignment : Alignment}
    (sound : Sound graph ⟨monitor, 0, .idle fault⟩)
    (aligns : monitor.graph.align monitor.latencies.intrinsic = .ok alignment)
    (read : itemAt monitor.latencies.intrinsic position = .ok old) (differs : old ≠ samples)
    (stored : replaceAt monitor.latencies.intrinsic position samples = .ok intrinsic) :
    ReflTransGen Step ⟨monitor, 0, .idle fault⟩ ⟨overtaken monitor intrinsic alignment, 0, .idle none⟩ := by
  have reads : ReflTransGen Step ⟨monitor, 0, .idle fault⟩
      ⟨monitor, 0, .reading monitor.latencies.intrinsic⟩ :=
    .head (.start rfl) (readAll_steps _ _)
  have stores := reads.tail (.store read differs stored)
  have complete : monitor.latencies.intrinsic.size = intrinsic.size := by
    rw [(replaceAt_eq_ok.mp stored).2, Array.size_setIfInBounds]
  exact (stores.trans ((sound.steps stores).align_steps complete aligns)).tail (.mark rfl)

end Exchange

/-- However reports and refreshes fall among each other: where no mark is left or
due and no refresh is under way, what is published is the alignment of what is
reported, unless that has no alignment and the last refresh ended for want of it. -/
theorem no_report_lost {ν : Type} [Node ν] {patch : Patch ν} {options : CompileOptions} {plan : Plan ν}
    {last : Exchange} {fault : Option Fault} (compiled : compile patch options = .ok (.ok plan))
    (steps : Relation.ReflTransGen Exchange.Step (.around plan.monitor) last)
    (clean : last.monitor.latencies.dirty = false) (marked : last.unmarked = 0)
    (rests : last.refresh = .idle fault) :
    (∃ alignment, plan.monitor.graph.align last.monitor.latencies.intrinsic = .ok alignment ∧
      last.monitor.latencies.compensation = alignment.values ∧
      last.monitor.latencies.links = alignment.links) ∨
    ∃ reason, fault = some reason ∧
      plan.monitor.graph.align last.monitor.latencies.intrinsic = .error reason := by
  obtain ⟨placed, survey, origin⟩ := compile_plan compiled
  have sound := (Exchange.Sound.around origin).steps steps
  have current := sound.current ⟨clean, marked⟩
  rw [rests] at current
  rw [← sound.same]
  cases fault with
  | none => exact .inl current
  | some reason => exact .inr ⟨reason, rfl, current⟩

theorem echo_overtaken : ∃ (plan : Plan Builtin) (last : Exchange),
    compile echo { blockSize := 4 } = .ok (.ok plan) ∧
    Relation.ReflTransGen Exchange.Step (.around plan.monitor) last ∧
    last.monitor.latencies.dirty = false ∧ last.unmarked = 0 ∧ last.refresh = .idle none ∧
    plan.monitor.routeCompensation? ⟨0⟩ ⟨2⟩ = some 2 ∧ last.monitor.routeCompensation? ⟨0⟩ ⟨2⟩ = some 1 := by
  obtain ⟨plan, compiled, before, ⟨old, read, differs⟩, intrinsic, stored, alignment, aligns, ⟨_, monitor⟩,
      refreshed, clean, after⟩ : ∃ plan, compile echo { blockSize := 4 } = .ok (.ok plan) ∧
      plan.monitor.routeCompensation? ⟨0⟩ ⟨2⟩ = some 2 ∧
      (∃ old, itemAt plan.monitor.latencies.intrinsic 1 = .ok old ∧ old ≠ 1) ∧
      ∃ intrinsic, replaceAt plan.monitor.latencies.intrinsic 1 1 = .ok intrinsic ∧
      ∃ alignment, plan.monitor.graph.align plan.monitor.latencies.intrinsic = .ok alignment ∧
      ∃ refreshed, (Exchange.overtaken plan.monitor intrinsic alignment).refreshIfDirty = .ok refreshed ∧
        refreshed.2.latencies.dirty = false ∧ refreshed.2.routeCompensation? ⟨0⟩ ⟨2⟩ = some 1 := by decide +kernel
  obtain ⟨placed, survey, origin⟩ := compile_plan compiled
  have sound := Exchange.Sound.around origin
  have overtaken := sound.overtaken_steps aligns read differs stored
  exact ⟨plan, ⟨monitor, 0, .idle none⟩, compiled,
    overtaken.trans ((sound.steps overtaken).refreshIfDirty_steps refreshed), clean, rfl, rfl, before, after⟩

theorem echo_no_report_lost : ∃ (plan : Plan Builtin) (last : Exchange),
    compile echo { blockSize := 4 } = .ok (.ok plan) ∧
    Relation.ReflTransGen Exchange.Step (.around plan.monitor) last ∧
    last.monitor.latencies.dirty = false ∧ last.unmarked = 0 ∧ last.refresh = .idle none ∧
    last.monitor.routeCompensation? ⟨0⟩ ⟨2⟩ = some 1 ∧
    ∃ alignment, plan.monitor.graph.align last.monitor.latencies.intrinsic = .ok alignment ∧
      last.monitor.latencies.compensation = alignment.values ∧
      last.monitor.latencies.links = alignment.links := by
  obtain ⟨plan, last, compiled, steps, clean, marked, rests, _, after⟩ := echo_overtaken
  refine ⟨plan, last, compiled, steps, clean, marked, rests, after, ?_⟩
  rcases no_report_lost compiled steps clean marked rests with aligned | ⟨_, ended, _⟩
  · exact aligned
  · cases ended

end Patchbay
