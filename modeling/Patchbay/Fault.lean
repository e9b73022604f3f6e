/-! Faults, and the checked arithmetic of counts.

Frames, samples, latencies and sizes are counts of 64 bits. A computation that
would leave that range, reach outside a sequence or copy between blocks of
different lengths has no answer; it ends in a `Fault` instead of going on with
a wrapped or invented value.
-/

set_option autoImplicit false

namespace Patchbay

/-- Why a computation ended without an answer. -/
inductive Fault where
  /-- A sum, product or difference of counts leaves the 64-bit range. -/
  | overflow
  /-- A position lies outside the sequence it points into. -/
  | outOfRange
  /-- A block is copied onto one of another length. -/
  | lengthMismatch
  /-- More storage is asked for than can be addressed. -/
  | storage
  /-- A delay is longer than the line that has to hold it. -/
  | delayTooLong
  /-- A producer stands at or after its consumer. -/
  | producerOrder
  /-- A quotient or remainder by zero. -/
  | divisionByZero
  deriving DecidableEq, Repr

abbrev Checked (α : Type) := Except Fault α

namespace Count

/-- Counts are below this bound; they have 64 bits. -/
def limit : Nat := 0x10000000000000000

def add (a b : Nat) : Checked Nat :=
  if a + b < limit then .ok (a + b) else .error .overflow

def mul (a b : Nat) : Checked Nat :=
  if a * b < limit then .ok (a * b) else .error .overflow

def sub (a b : Nat) : Checked Nat :=
  if b ≤ a then .ok (a - b) else .error .overflow

/-- The largest reservation has one byte less; its size has 63 bits. -/
def storageLimit : Nat := 0x8000000000000000

def reserve (count size : Nat) : Checked Unit :=
  if count * size < storageLimit then .ok () else .error .storage

def total : List Nat → Nat
  | [] => 0
  | count :: rest => count + total rest

theorem add_eq_ok {a b c : Nat} : add a b = .ok c ↔ a + b < limit ∧ c = a + b := by
  unfold add
  split <;> simp [*, eq_comm]

theorem mul_eq_ok {a b c : Nat} : mul a b = .ok c ↔ a * b < limit ∧ c = a * b := by
  unfold mul
  split <;> simp [*, eq_comm]

theorem sub_eq_ok {a b c : Nat} : sub a b = .ok c ↔ b ≤ a ∧ c = a - b := by
  unfold sub
  split <;> simp [*, eq_comm]

end Count

def itemAt {α : Type} (items : Array α) (position : Nat) : Checked α :=
  match items[position]? with
  | some item => .ok item
  | none => .error .outOfRange

end Patchbay
