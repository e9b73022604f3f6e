import Patchbay.Proofs.Latency.Alignment

/-! The one alignment of a graph.

Alignment answers exactly if the latencies along every path add up to a count, and
then it answers with the only delays that solve the graph's equations: a producer
waits as long as it can without being late for a consumer, and each link takes what
its consumer still lacks.
-/

set_option autoImplicit false

namespace Patchbay

namespace LatencyGraph

variable {graph : LatencyGraph}

/-! ## Sums -/

/-- The latencies along every path add up to a count. -/
def Addable (graph : LatencyGraph) (latency : Nat → Nat) : Prop :=
  ∀ position total, graph.Accumulates latency position total → total < Count.limit

theorem latestDelivery_lt {arrival intrinsic : Array Nat} {sources : List Nat} {latest : Nat}
    (answer : latestDelivery arrival intrinsic sources = .ok latest) : latest < Count.limit := by
  induction sources generalizing latest with
  | nil =>
    cases answer
    decide
  | cons source rest ih =>
    simp only [latestDelivery, bind_eq_ok, itemAt_eq_ok, Count.add_eq_ok, pure_eq_ok] at answer
    obtain ⟨_, _, _, _, _, ⟨fits, rfl⟩, others, later, rfl⟩ := answer
    exact max_lt fits (ih later)

theorem arrivals_lt {intrinsic arrival : Array Nat} (answer : graph.arrivals intrinsic = .ok arrival) :
    ∀ late ∈ arrival, late < Count.limit := by
  rw [arrivals_eq_foldlM] at answer
  refine foldlM_keeps (fun soFar => ∀ late ∈ soFar, late < Count.limit) (fun {soFar _ _} _ below step => ?_) (by simp)
    answer
  simp only [bind_eq_ok, pure_eq_ok] at step
  obtain ⟨latest, delivery, rfl⟩ := step
  intro late member
  rcases Array.mem_push.mp member with earlier | rfl
  · exact below late earlier
  · exact latestDelivery_lt delivery

theorem align_lt {intrinsic : Array Nat} {alignment : Alignment} (answer : graph.align intrinsic = .ok alignment)
    (position : Nat) : alignment.arrivalAt position < Count.limit := by
  simp only [align, bind_eq_ok, pure_eq_ok] at answer
  obtain ⟨arrival, arrives, _, _, rfl⟩ := answer
  rw [Alignment.arrivalAt, Array.getD_eq_getD_getElem?]
  cases item : arrival[position]? with
  | none => decide
  | some late => exact arrivals_lt arrives late (Array.mem_of_getElem? item)

/-- A sum that is no count keeps the graph from being aligned, and nothing else does. -/
theorem align_answers_iff {intrinsic : Array Nat} (inOrder : graph.Ordered) (sizes : graph.size ≤ intrinsic.size) :
    (∃ alignment, graph.align intrinsic = .ok alignment) ↔ graph.Addable (intrinsic.getD · 0) := by
  constructor
  · rintro ⟨alignment, answer⟩ position total path
    cases path with
    | start => decide
    | step member before =>
      have arrives := (align_aligned inOrder answer).arrival (lt_size_of_mem_producersOf member)
      exact Nat.lt_of_le_of_lt (arrives.2 (Accumulates.step member before)) (align_lt answer position)
  · exact align_ok intrinsic inOrder sizes

/-! ## The solution -/

structure Solves (graph : LatencyGraph) (latency : Nat → Nat) (alignment : Alignment) : Prop
    extends graph.Aligned latency alignment where
  linked : ∀ {producer consumer}, producer ∈ graph.producersOf consumer →
    ∃ link, graph.link producer consumer = some link
  first : ∀ {position}, position < graph.size → graph.producersOf position = [] →
    alignment.arrivalAt position = 0
  /-- The node waits as long as no consumer is late. -/
  longest : ∀ {producer}, graph.consumersOf producer ≠ [] →
    IsGreatest {wait | ∀ consumer ∈ graph.consumersOf producer,
      alignment.arrivalAt producer + latency producer + wait ≤ alignment.arrivalAt consumer}
      (alignment.values.getD producer 0)

namespace Aligned

variable {latency : Nat → Nat} {alignment other : Alignment} (inOrder : graph.Ordered)
  (aligned : graph.Aligned latency alignment)
include inOrder aligned

theorem longest {producer : Nat} (feeds : graph.consumersOf producer ≠ []) :
    IsGreatest {wait | ∀ consumer ∈ graph.consumersOf producer,
      alignment.arrivalAt producer + latency producer + wait ≤ alignment.arrivalAt consumer}
      (alignment.values.getD producer 0) := by
  have valueAt : ∀ {wait}, alignment.values[producer]? = some wait → alignment.values.getD producer 0 = wait := by
    intro wait found
    rw [Array.getD_eq_getD_getElem?, found, Option.getD_some]
  constructor
  · intro consumer member
    obtain ⟨link, atLink⟩ := inOrder.exists_link member
    obtain ⟨wait, rest, waits, _, balance⟩ := aligned.balance atLink
    rw [valueAt waits]
    omega
  · -- A link with nothing left leaves no room for a longer wait.
    intro longer inTime
    obtain ⟨consumer, link, atLink, nothing⟩ := aligned.tight feeds
    obtain ⟨wait, rest, waits, left, balance⟩ := aligned.balance atLink
    rw [nothing] at left
    cases left
    have := inTime consumer (inOrder.mem_of_link atLink)
    rw [valueAt waits]
    omega

theorem solves : graph.Solves latency alignment where
  toAligned := aligned
  linked member := inOrder.exists_link (inOrder.mem_consumersOf.mpr member)
  first {position} inside idle := by
    have arrives := aligned.arrival inside
    generalize alignment.arrivalAt position = arrival at arrives
    cases arrives.1 with
    | start => rfl
    | step member _ =>
      rw [idle] at member
      cases member
  longest := aligned.longest inOrder

omit inOrder in
theorem arrivalAt_unique (again : graph.Aligned latency other) {position : Nat} (inside : position < graph.size) :
    alignment.arrivalAt position = other.arrivalAt position :=
  (aligned.arrival inside).unique (again.arrival inside)

theorem value_le (again : graph.Aligned latency other) {producer : Nat} (feeds : graph.consumersOf producer ≠ []) :
    alignment.values.getD producer 0 ≤ other.values.getD producer 0 := by
  apply (again.longest inOrder feeds).2
  intro consumer member
  have ends := inOrder.lt_size_of_mem_consumersOf member
  rw [again.arrivalAt_unique aligned ends.1, again.arrivalAt_unique aligned ends.2]
  exact (aligned.longest inOrder feeds).1 consumer member

theorem value_unique (again : graph.Aligned latency other) {producer : Nat} (inside : producer < graph.size) :
    alignment.values[producer]? = other.values[producer]? := by
  by_cases idle : graph.consumersOf producer = []
  · rw [aligned.idle inside idle, again.idle inside idle]
  have same := le_antisymm (aligned.value_le inOrder again idle) (again.value_le inOrder aligned idle)
  have here : producer < alignment.values.size := aligned.values_size ▸ inside
  have there : producer < other.values.size := again.values_size ▸ inside
  simpa [Array.getD_eq_getD_getElem?, here, there] using same

theorem link_unique (again : graph.Aligned latency other) {number : Nat} (inside : number < graph.links.length) :
    alignment.links[number]? = other.links[number]? := by
  have atLink := inOrder.link_of_getElem?_links (List.getElem?_eq_getElem inside)
  have ends := inOrder.lt_size_of_mem_consumersOf (inOrder.mem_of_link atLink)
  obtain ⟨wait, rest, waits, left, balance⟩ := aligned.balance atLink
  obtain ⟨wait', rest', waits', left', balance'⟩ := again.balance atLink
  rw [← aligned.value_unique inOrder again ends.1, waits] at waits'
  cases waits'
  rw [again.arrivalAt_unique aligned ends.1, again.arrivalAt_unique aligned ends.2] at balance'
  rw [left, left']
  congr 1
  omega

/-- The equations have one solution. -/
theorem unique (again : graph.Aligned latency other) : other = alignment := by
  have values : other.values = alignment.values := by
    apply Array.ext_getElem?
    intro producer
    by_cases inside : producer < graph.size
    · exact (aligned.value_unique inOrder again inside).symm
    · simp [Nat.le_of_not_lt inside, again.values_size, aligned.values_size]
  have arrival : other.arrival = alignment.arrival := by
    refine Array.ext (again.arrival_size.trans aligned.arrival_size.symm) fun position here there => ?_
    have same := again.arrivalAt_unique aligned (again.arrival_size ▸ here)
    simpa [Alignment.arrivalAt, Array.getD_eq_getD_getElem?, here, there] using same
  have links : other.links = alignment.links := by
    apply Array.ext_getElem?
    intro number
    by_cases inside : number < graph.links.length
    · exact (aligned.link_unique inOrder again inside).symm
    · simp [Nat.le_of_not_lt inside, again.links_size, aligned.links_size]
  cases alignment
  cases other
  rw [Alignment.mk.injEq]
  exact ⟨values, links, arrival⟩

end Aligned

/-- Producer lists in which producers precede their consumers make up a graph, and as
long as the latencies along every path add up to a count, the graph is aligned by the
one solution of its equations. -/
theorem align_solves {producers : Array (List Nat)}
    (precedes : ∀ (position : Nat) sources, producers[position]? = some sources → ∀ source ∈ sources, source < position) :
    ∃ graph, ofProducers producers = .ok graph ∧ graph.producers = producers ∧
      ∀ intrinsic : Array Nat, graph.size ≤ intrinsic.size → graph.Addable (intrinsic.getD · 0) →
        ∃ alignment, graph.align intrinsic = .ok alignment ∧ graph.Solves (intrinsic.getD · 0) alignment ∧
          ∀ other, graph.Solves (intrinsic.getD · 0) other → other = alignment := by
  obtain ⟨graph, built⟩ := ofProducers_ok precedes
  obtain ⟨same, inOrder⟩ := ofProducers_eq_ok built
  refine ⟨graph, built, same, fun intrinsic sizes addable => ?_⟩
  obtain ⟨alignment, answer⟩ := align_ok intrinsic inOrder sizes addable
  have aligned := align_aligned inOrder answer
  exact ⟨alignment, answer, aligned.solves inOrder, fun other solves => aligned.unique inOrder solves.toAligned⟩

def bypassed : LatencyGraph := ⟨#[[], [0], [0], [1, 2, 2], [0, 3]], #[[1, 2, 4], [3], [3], [4], []]⟩

theorem bypassed_solved : ∃ alignment, ofProducers bypassed.producers = .ok bypassed ∧
    bypassed.align #[2, 3, 5, 7, 1] = .ok alignment ∧ bypassed.Solves (#[2, 3, 5, 7, 1].getD · 0) alignment ∧
    alignment = ⟨#[0, 2, 0, 0, 0], #[0, 0, 12, 0, 0, 0], #[0, 2, 2, 7, 14]⟩ := by
  obtain ⟨_, built, rfl⟩ : ∃ graph, ofProducers bypassed.producers = .ok graph ∧ graph = bypassed := by decide +kernel
  obtain ⟨graph, again, _, solved⟩ := align_solves (ordered_eq_true.mp (by decide : ordered bypassed.producers = true))
  rw [built] at again
  cases again
  have aligns : bypassed.align #[2, 3, 5, 7, 1] =
      .ok ⟨#[0, 2, 0, 0, 0], #[0, 0, 12, 0, 0, 0], #[0, 2, 2, 7, 14]⟩ := rfl
  have addable := (align_answers_iff (ofProducers_eq_ok built).2 (by decide)).mp ⟨_, aligns⟩
  obtain ⟨alignment, answer, solves, _⟩ := solved #[2, 3, 5, 7, 1] (by decide) addable
  refine ⟨alignment, built, answer, solves, ?_⟩
  rw [aligns] at answer
  exact (Except.ok.inj answer).symm

end LatencyGraph

end Patchbay
