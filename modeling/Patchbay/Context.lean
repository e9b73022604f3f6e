import Patchbay.Fault

/-! What a node may know about the block being rendered. -/

set_option autoImplicit false

namespace Patchbay

inductive ProcessingMode where
  | offline
  /-- A block has to be ready within `deadline` nanoseconds. -/
  | realtime (deadline : Nat)
  deriving DecidableEq, Repr

/-- The clock counts all rendered frames; the position stands still while the
transport is stopped. -/
structure Context where
  sampleRate : Nat
  blockSize : Nat
  position : Nat
  blockIndex : Nat
  tempo : Float
  mode : ProcessingMode
  playing : Bool
  deriving DecidableEq

namespace Context

def start (sampleRate blockSize : Nat) : Context where
  sampleRate
  blockSize
  position := 0
  blockIndex := 0
  tempo := 120.0
  mode := .offline
  playing := true

def clock (context : Context) : Checked Nat :=
  Count.mul context.blockIndex context.blockSize

/-- The transport position in seconds; a rate of zero counts as one. -/
def seconds (context : Context) : Float :=
  (UInt64.ofNat context.position).toFloat / (UInt64.ofNat (max context.sampleRate 1)).toFloat

def beats (context : Context) : Float := context.seconds * context.tempo / 60.0

def advance (context : Context) : Checked Context := do
  let blockIndex ← Count.add context.blockIndex 1
  let position ←
    if context.playing then Count.add context.position context.blockSize
    else pure context.position
  return { context with blockIndex, position }

end Context

end Patchbay
