import Mathlib.Algebra.GroupWithZero.Nat
import Mathlib.Data.List.Forall2
import Mathlib.Data.List.Basic
import Patchbay.Fault
import Patchbay.Latency.Published

/-! Computations that may end in a fault, taken apart.

A sequence of checked steps answers exactly when each step does. Everything
that is proved about plans and rendering reads such a sequence through these
equivalences and never through the definition of the monad.
-/

set_option autoImplicit false

namespace Patchbay

variable {α β ε : Type}

/-! ## Steps in sequence -/

theorem bind_eq_ok {x : Except ε α} {f : α → Except ε β} {b : β} :
    (x >>= f) = .ok b ↔ ∃ a, x = .ok a ∧ f a = .ok b := by
  cases x with
  | error fault => simp [bind, Except.bind]
  | ok a => simp [bind, Except.bind]

theorem bind_eq_error {x : Except ε α} {f : α → Except ε β} {fault : ε} :
    (x >>= f) = .error fault ↔ x = .error fault ∨ ∃ a, x = .ok a ∧ f a = .error fault := by
  cases x with
  | error other => simp [bind, Except.bind]
  | ok a => simp [bind, Except.bind]

@[simp] theorem pure_eq_ok {a b : α} : (pure a : Except ε α) = .ok b ↔ a = b := by
  simp [pure, Except.pure]

@[simp] theorem ok_bind (a : α) (f : α → Except ε β) : (Except.ok a >>= f) = f a := rfl

@[simp] theorem error_bind (fault : ε) (f : α → Except ε β) : (Except.error fault >>= f) = .error fault := rfl

theorem throw_bind (fault : ε) (f : α → Except ε β) : ((throw fault : Except ε α) >>= f) = .error fault := rfl

@[simp] theorem map_eq_ok {x : Except ε α} {f : α → β} {b : β} :
    f <$> x = .ok b ↔ ∃ a, x = .ok a ∧ f a = b := by
  cases x with
  | error fault => simp [Functor.map, Except.map]
  | ok a => simp [Functor.map, Except.map]

/-! ## Answers that are tested

A computation of closed terms can be run, and what it answers with tested.
-/

instance decidableAnswers : (answer : Except ε α) → Decidable (∃ value, answer = .ok value)
  | .ok value => isTrue ⟨value, rfl⟩
  | .error _ => isFalse fun ⟨_, same⟩ => nomatch same

instance decidableAnswersWith {holds : α → Prop} [DecidablePred holds] :
    (answer : Except ε α) → Decidable (∃ value, answer = .ok value ∧ holds value)
  | .ok value => decidable_of_iff (holds value) (by simp)
  | .error _ => isFalse fun ⟨_, same, _⟩ => nomatch same

instance decidableAccepts {δ : Type} {holds : α → Prop} [DecidablePred holds] :
    (answer : Except ε (Except δ α)) → Decidable (∃ value, answer = .ok (.ok value) ∧ holds value)
  | .ok (.ok value) => decidable_of_iff (holds value) (by simp)
  | .ok (.error _) => isFalse fun ⟨_, same, _⟩ => nomatch same
  | .error _ => isFalse fun ⟨_, same, _⟩ => nomatch same

instance decidableFails [DecidableEq ε] (fault : ε) : (answer : Except ε α) → Decidable (answer = .error fault)
  | .ok _ => isFalse nofun
  | .error other => decidable_of_iff (other = fault) (by simp)

/-! ## Two computations in step -/

/-- Both computations answer, with results that are related, or both end in one fault. -/
inductive InStep (related : α → β → Prop) : Except ε α → Except ε β → Prop where
  | answer {a : α} {b : β} : related a b → InStep related (.ok a) (.ok b)
  | fault (fault : ε) : InStep related (.error fault) (.error fault)

namespace InStep

variable {γ δ : Type} {related : α → β → Prop} {x : Except ε α} {y : Except ε β}

theorem bind {also : γ → δ → Prop} {f : α → Except ε γ} {g : β → Except ε δ} (first : InStep related x y)
    (later : ∀ a b, x = .ok a → y = .ok b → related a b → InStep also (f a) (g b)) :
    InStep also (x >>= f) (y >>= g) := by
  cases first with
  | answer here => exact later _ _ rfl rfl here
  | fault fault => exact .fault fault

theorem mono {wider : α → β → Prop} (here : InStep related x y) (admits : ∀ a b, related a b → wider a b) :
    InStep wider x y := by
  cases here with
  | answer here => exact .answer (admits _ _ here)
  | fault fault => exact .fault fault

theorem map (x : Except ε α) (f : α → β) : InStep (fun a b => b = f a) x (f <$> x) := by
  cases x with
  | error fault => exact .fault fault
  | ok a => exact .answer rfl

theorem of_faults (faults : ∀ fault, x = .error fault ↔ y = .error fault)
    (answers : ∀ a b, x = .ok a → y = .ok b → related a b) : InStep related x y := by
  cases x with
  | error fault =>
    rw [(faults fault).mp rfl]
    exact .fault fault
  | ok a =>
    cases y with
    | error fault => cases (faults fault).mpr rfl
    | ok b => exact .answer (answers a b rfl rfl)

theorem refl (x : Except ε α) : InStep Eq x x := by
  cases x with
  | error fault => exact .fault fault
  | ok a => exact .answer rfl

theorem eq {y : Except ε α} (here : InStep Eq x y) : x = y := by
  cases here with
  | answer same => rw [same]
  | fault => rfl

end InStep

/-! ## Lists of steps -/

theorem mapM_eq_ok {f : α → Except ε β} {items : List α} {results : List β} :
    items.mapM f = .ok results ↔ List.Forall₂ (fun item result => f item = .ok result) items results := by
  induction items generalizing results with
  | nil =>
    rw [List.mapM_nil, pure_eq_ok, List.forall₂_nil_left_iff]
    exact eq_comm
  | cons item rest ih =>
    simp only [List.mapM_cons, bind_eq_ok, pure_eq_ok, List.forall₂_cons_left_iff]
    constructor
    · rintro ⟨result, first, others, later, rfl⟩
      exact ⟨result, others, first, ih.mp later, rfl⟩
    · rintro ⟨result, others, first, later, rfl⟩
      exact ⟨result, first, others, ih.mpr later, rfl⟩

theorem exists_of_mem_right {R : α → β → Prop} {items : List α} {results : List β}
    (related : List.Forall₂ R items results) {result : β} (member : result ∈ results) :
    ∃ item ∈ items, R item result := by
  induction related with
  | nil => cases member
  | @cons item first _ _ here _ ih =>
    rcases List.mem_cons.mp member with rfl | later
    · exact ⟨item, List.mem_cons_self, here⟩
    · obtain ⟨other, among, there⟩ := ih later
      exact ⟨other, List.mem_cons_of_mem _ among, there⟩

theorem exists_of_mem_left {R : α → β → Prop} {items : List α} {results : List β}
    (related : List.Forall₂ R items results) {item : α} (member : item ∈ items) :
    ∃ result ∈ results, R item result :=
  exists_of_mem_right (List.Forall₂.flip (R := flip R) related) member

theorem forall_mem_concat {P : α → Prop} {items : List α} {last : α} :
    (∀ item ∈ items ++ [last], P item) ↔ (∀ item ∈ items, P item) ∧ P last := by
  rw [List.forall_mem_append, List.forall_mem_singleton]

theorem exists_getElem?_left {R : α → β → Prop} {items : List α} {results : List β}
    (related : List.Forall₂ R items results) {rank : Nat} {item : α} (found : items[rank]? = some item) :
    ∃ result, results[rank]? = some result ∧ R item result := by
  induction related generalizing rank with
  | nil => cases found
  | cons here _ ih =>
    cases rank with
    | zero =>
      cases found
      exact ⟨_, rfl, here⟩
    | succ rank => exact ih found

theorem exists_getElem?_right {R : α → β → Prop} {items : List α} {results : List β}
    (related : List.Forall₂ R items results) {rank : Nat} {result : β} (found : results[rank]? = some result) :
    ∃ item, items[rank]? = some item ∧ R item result :=
  exists_getElem?_left (List.Forall₂.flip (R := flip R) related) found

theorem exists_forall₂ {R : α → β → Prop} {items : List α} (each : ∀ item ∈ items, ∃ result, R item result) :
    ∃ results, List.Forall₂ R items results := by
  induction items with
  | nil => exact ⟨[], .nil⟩
  | cons item rest ih =>
    obtain ⟨⟨result, here⟩, later⟩ := List.forall_mem_cons.mp each
    obtain ⟨results, others⟩ := ih later
    exact ⟨result :: results, .cons here others⟩

theorem forall₂_ranked {R : α → β → Prop} {items : List α} {results : List β}
    (related : List.Forall₂ R items results) : List.Forall₂ (fun item result => R item result ∧
      ∃ rank : Nat, items[rank]? = some item ∧ results[rank]? = some result) items results := by
  rw [List.forall₂_iff_get] at related ⊢
  refine ⟨related.1, fun rank here there => ⟨related.2 rank here there, rank, ?_, ?_⟩⟩
  · exact List.getElem?_eq_getElem here
  · exact List.getElem?_eq_getElem there

theorem map_filter_range {items : List α} {keepAt : Nat → Bool} {keep : α → Bool}
    (agree : ∀ (position : Nat) item, items[position]? = some item → keepAt position = keep item) :
    ((List.range items.length).filter keepAt).map (items[·]?) = (items.filter keep).map some := by
  induction items generalizing keepAt with
  | nil => rfl
  | cons first rest ih =>
    have later : ∀ (position : Nat) item, rest[position]? = some item →
        (keepAt ∘ Nat.succ) position = keep item := fun position item found => agree (position + 1) item found
    have start := agree 0 first rfl
    have others := ih later
    rw [List.length_cons, List.range_succ_eq_map, List.filter_cons, List.filter_cons, List.filter_map, start]
    split
    · rw [List.map_cons, List.map_cons, List.map_map, ← others]
      rfl
    · rw [List.map_map, ← others]
      rfl

theorem forall₂_comp {γ : Type} {R : α → β → Prop} {S : β → γ → Prop} {T : α → γ → Prop}
    (through : ∀ item middle result, R item middle → S middle result → T item result)
    {items : List α} {middles : List β} {results : List γ} (first : List.Forall₂ R items middles)
    (second : List.Forall₂ S middles results) : List.Forall₂ T items results := by
  induction first generalizing results with
  | nil =>
    cases second
    exact .nil
  | cons here _ ih =>
    cases second with
    | cons there others => exact .cons (through _ _ _ here there) (ih others)

theorem forall₂_unique {R S : α → β → Prop} {items : List α} {results others : List β}
    (first : List.Forall₂ R items results) (second : List.Forall₂ S items others)
    (unique : ∀ item ∈ items, ∀ {result other}, R item result → S item other → other = result) :
    others = results := by
  induction first generalizing others with
  | nil =>
    cases second
    rfl
  | cons here _ ih =>
    cases second with
    | cons there later =>
      rw [unique _ List.mem_cons_self here there,
        ih later fun item member => unique item (List.mem_cons_of_mem _ member)]

theorem sum_eq_zero_iff_of_forall₂ {R : α → Nat → Prop} {P : α → Prop} {items : List α} {counts : List Nat}
    (related : List.Forall₂ R items counts)
    (each : ∀ item count, item ∈ items → R item count → (count = 0 ↔ P item)) :
    counts.sum = 0 ↔ ∀ item ∈ items, P item := by
  induction related with
  | nil => simp
  | @cons item count _ _ here _ ih =>
    rw [List.sum_cons, Nat.add_eq_zero_iff, List.forall_mem_cons, each item count List.mem_cons_self here,
      ih fun other count member => each other count (List.mem_cons_of_mem _ member)]

theorem mapM_ok_of_forall (f : α → Except ε β) (items : List α)
    (each : ∀ item ∈ items, ∃ result, f item = .ok result) : ∃ results, items.mapM f = .ok results := by
  obtain ⟨results, answered⟩ := exists_forall₂ each
  exact ⟨results, mapM_eq_ok.mpr answered⟩

theorem foldlM_keeps (holds : β → Prop) {step : β → α → Except ε β} {items : List α} {start last : β}
    (keeps : ∀ {state item next}, item ∈ items → holds state → step state item = .ok next → holds next)
    (begins : holds start) (answer : items.foldlM step start = .ok last) : holds last := by
  induction items generalizing start with
  | nil =>
    cases answer
    exact begins
  | cons item rest ih =>
    rw [List.foldlM_cons, bind_eq_ok] at answer
    obtain ⟨next, first, later⟩ := answer
    exact ih (fun member => keeps (List.mem_cons_of_mem item member)) (keeps List.mem_cons_self begins first) later

theorem forM_cons_eq (f : α → Except ε Unit) (item : α) (rest : List α) :
    (item :: rest).forM f = (f item >>= fun _ => rest.forM f) := rfl

theorem forM_eq_ok {f : α → Except ε Unit} {items : List α} :
    items.forM f = .ok () ↔ ∀ item ∈ items, f item = .ok () := by
  induction items with
  | nil => simp [pure, Except.pure]
  | cons item rest ih =>
    rw [forM_cons_eq, bind_eq_ok, List.forall_mem_cons, ← ih]
    constructor
    · rintro ⟨_, first, later⟩
      exact ⟨first, later⟩
    · rintro ⟨first, later⟩
      exact ⟨⟨⟩, first, later⟩

theorem forM_eq_error {f : α → Except ε Unit} {items : List α} {fault : ε}
    (failed : items.forM f = .error fault) : ∃ item ∈ items, f item = .error fault := by
  induction items with
  | nil => cases failed
  | cons item rest ih =>
    rw [forM_cons_eq, bind_eq_error] at failed
    rcases failed with first | ⟨_, _, later⟩
    · exact ⟨item, List.mem_cons_self, first⟩
    · obtain ⟨other, member, found⟩ := ih later
      exact ⟨other, List.mem_cons_of_mem _ member, found⟩

/-- A loop that stops at the first item that fails a test. -/
theorem forIn_unless_eq_ok {holds : α → Bool} {fault : α → ε} {items : List α} {done : Unit} :
    (forIn items () fun item _ =>
      if holds item = true then pure (ForInStep.yield ())
      else do
        throw (fault item)
        pure (ForInStep.yield ()) : Except ε Unit) = .ok done ↔ ∀ item ∈ items, holds item = true := by
  induction items with
  | nil => simp [List.forIn_nil]
  | cons item rest ih =>
    rw [List.forIn_cons, bind_eq_ok, List.forall_mem_cons, ← ih]
    cases holds item with
    | true => simp
    | false => simp

theorem forIn_unless_eq_error {holds : α → Bool} {fault : α → ε} {items : List α} {failure : ε}
    (failed : (forIn items () fun item _ =>
      if holds item = true then pure (ForInStep.yield ())
      else do
        throw (fault item)
        pure (ForInStep.yield ()) : Except ε Unit) = .error failure) :
    ∃ item ∈ items, holds item = false ∧ fault item = failure := by
  induction items with
  | nil => cases failed
  | cons item rest ih =>
    rw [List.forIn_cons, bind_eq_error] at failed
    cases first : holds item with
    | true =>
      rw [first] at failed
      obtain ⟨_, next, later⟩ := failed.resolve_left nofun
      cases next
      obtain ⟨other, member, found⟩ := ih later
      exact ⟨other, List.mem_cons_of_mem _ member, found⟩
    | false =>
      rw [first] at failed
      rcases failed with here | ⟨_, next, _⟩
      · cases here
        exact ⟨item, List.mem_cons_self, first, rfl⟩
      · cases next

/-! ## Positions -/

@[simp] theorem itemAt_eq_ok {items : Array α} {position : Nat} {item : α} :
    itemAt items position = .ok item ↔ items[position]? = some item := by
  unfold itemAt
  split <;> simp [*]

theorem replaceAt_eq_ok {items result : Array α} {position : Nat} {item : α} :
    replaceAt items position item = .ok result ↔
      position < items.size ∧ result = items.setIfInBounds position item := by
  unfold replaceAt
  split
  · rename_i inside
    simp [inside, Array.setIfInBounds, eq_comm]
  · rename_i outside
    simp [outside]

theorem getElem?_of_starts {index : Nat} {item : α} {before after : List α} (extends_ : before <+: after)
    (found : before[index]? = some item) : after[index]? = some item := by
  obtain ⟨more, rfl⟩ := extends_
  rw [List.getElem?_append_left (List.getElem?_eq_some_iff.mp found).1, found]

theorem rank_unique_of_pairwise {R : α → α → Prop} {items : List α} (apart : items.Pairwise R) {first second : Nat}
    {item other : α} (here : items[first]? = some item) (there : items[second]? = some other)
    (clash : ¬ R item other) (clash' : ¬ R other item) : first = second := by
  obtain ⟨inside, rfl⟩ := List.getElem?_eq_some_iff.mp here
  obtain ⟨within, rfl⟩ := List.getElem?_eq_some_iff.mp there
  rcases Nat.lt_trichotomy first second with less | same | more
  · exact absurd (List.pairwise_iff_getElem.mp apart first second inside within less) clash
  · exact same
  · exact absurd (List.pairwise_iff_getElem.mp apart second first within inside more) clash'

theorem findIdx?_of_nodup {κ : Type} [DecidableEq κ] {key : α → κ} {items : List α} (distinct : (items.map key).Nodup)
    {index : Nat} {item : α} (found : items[index]? = some item) :
    items.findIdx? (key · = key item) = some index := by
  obtain ⟨inside, rfl⟩ := List.getElem?_eq_some_iff.mp found
  rw [List.findIdx?_eq_some_iff_getElem]
  refine ⟨inside, by simp, fun earlier less => ?_⟩
  have differ := List.pairwise_iff_getElem.mp (List.pairwise_map.mp distinct) earlier index (by omega) inside less
  simpa using differ

theorem take_concat_prefix {index : Nat} {item : α} {items : List α} (found : items[index]? = some item) :
    (items.take index).length = index ∧ items.take index ++ [item] <+: items := by
  have inside := (List.getElem?_eq_some_iff.mp found).1
  refine ⟨List.length_take_of_le (by omega), ?_⟩
  have whole := List.take_prefix (index + 1) items
  rwa [List.take_add_one, found] at whole

theorem forall_prefix_concat {P : List α → α → Prop} {items : List α} {last : α} :
    (∀ sofar item, sofar ++ [item] <+: items ++ [last] → P sofar item) ↔
      (∀ sofar item, sofar ++ [item] <+: items → P sofar item) ∧ P items last := by
  constructor
  · intro all
    exact ⟨fun sofar item shorter => all sofar item (shorter.trans (List.prefix_append _ _)),
      all items last (List.prefix_refl _)⟩
  · rintro ⟨all, newest⟩ sofar item extends_
    rcases List.prefix_concat_iff.mp extends_ with whole | shorter
    · obtain ⟨rfl, same⟩ := List.append_inj' whole rfl
      cases same
      exact newest
    · exact all sofar item shorter

section

variable {items : List α} {take : α × Nat → Option β} {found : β}

theorem getElem?_zipIdx_eq_some {rank : Nat} {entry : α × Nat} :
    items.zipIdx[rank]? = some entry ↔ items[rank]? = some entry.1 ∧ rank = entry.2 := by
  simp only [List.getElem?_zipIdx, Option.map_eq_some_iff, Nat.zero_add]
  constructor
  · rintro ⟨item, there, rfl⟩
    exact ⟨there, rfl⟩
  · rintro ⟨there, rfl⟩
    exact ⟨_, there, rfl⟩

theorem findSome?_zipIdx_eq_none (answer : items.zipIdx.findSome? take = none) {index : Nat} {item : α}
    (here : items[index]? = some item) : take (item, index) = none :=
  List.findSome?_eq_none_iff.mp answer (item, index) (List.mk_mem_zipIdx_iff_getElem?.mpr here)

theorem findSome?_zipIdx_eq_some (answer : items.zipIdx.findSome? take = some found) :
    ∃ index item, items[index]? = some item ∧ take (item, index) = some found ∧
      ∀ earlier < index, ∀ other, items[earlier]? = some other → take (other, earlier) = none := by
  obtain ⟨before, ⟨item, index⟩, after, split, taken, skipped⟩ := List.findSome?_eq_some_iff.mp answer
  have listed : items.zipIdx[before.length]? = some (item, index) := by simp [split]
  obtain ⟨here, rfl⟩ := getElem?_zipIdx_eq_some.mp listed
  refine ⟨before.length, item, here, taken, fun earlier less other there => skipped _ ?_⟩
  have listed : items.zipIdx[earlier]? = some (other, earlier) := getElem?_zipIdx_eq_some.mpr ⟨there, rfl⟩
  rw [split, List.getElem?_append_left less] at listed
  exact List.mem_of_getElem? listed

theorem findSome?_zipIdx_reverse_eq_some (answer : items.zipIdx.reverse.findSome? take = some found) :
    ∃ index item, items[index]? = some item ∧ take (item, index) = some found ∧
      ∀ later > index, ∀ other, items[later]? = some other → take (other, later) = none := by
  obtain ⟨after, ⟨item, index⟩, before, split, taken, skipped⟩ := List.findSome?_eq_some_iff.mp answer
  have forward : items.zipIdx = before.reverse ++ (item, index) :: after.reverse := by
    rw [← List.reverse_reverse items.zipIdx, split]
    simp
  have listed : items.zipIdx[before.length]? = some (item, index) := by simp [forward]
  obtain ⟨here, rfl⟩ := getElem?_zipIdx_eq_some.mp listed
  refine ⟨before.length, item, here, taken, fun later beyond other there => skipped _ ?_⟩
  have listed : items.zipIdx[later]? = some (other, later) := getElem?_zipIdx_eq_some.mpr ⟨there, rfl⟩
  rw [forward, List.getElem?_append_right (by simp; omega), List.length_reverse, List.getElem?_cons,
    if_neg (by omega)] at listed
  exact List.mem_reverse.mp (List.mem_of_getElem? listed)

end

/-! ## Counts -/

namespace Count

theorem reserve_eq_ok {count size : Nat} {done : Unit} :
    reserve count size = .ok done ↔ count * size < storageLimit := by
  unfold reserve
  split <;> simp [*]

end Count

end Patchbay
