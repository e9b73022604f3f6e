/-! Samples: single-precision numbers, kept by their bits.

Arithmetic has one rounding per operation. A sample that is not a number is
moved bit by bit like any other, and passes through arithmetic: of several
operands that are not numbers, the first comes out.
-/

set_option autoImplicit false

namespace Patchbay

/-- The 32 bits of a single-precision number. -/
structure Sample where
  bits : UInt32
  deriving DecidableEq, Repr

namespace Sample

def ofFloat (number : Float32) : Sample := ⟨number.toBits⟩

def toFloat (sample : Sample) : Float32 := Float32.ofBits sample.bits

instance : OfNat Sample 0 := ⟨⟨0⟩⟩

instance : OfNat Sample 1 := ⟨⟨0x3f800000⟩⟩

def magnitude (sample : Sample) : UInt32 := sample.bits &&& 0x7fffffff

def isZero (sample : Sample) : Bool := sample.magnitude = 0

def isNaN (sample : Sample) : Bool := 0x7f800000 < sample.magnitude

/-- What arithmetic makes of an operand that is not a number. -/
def quiet (sample : Sample) : Sample := ⟨sample.bits ||| 0x00400000⟩

def undefined : Sample := ⟨0xffc00000⟩

@[inline] def combine (operation : Float32 → Float32 → Float32) (first second : Sample) : Sample :=
  if first.isNaN then first.quiet
  else if second.isNaN then second.quiet
  else
    let result := ofFloat (operation first.toFloat second.toFloat)
    if result.isNaN then undefined else result

instance : Add Sample := ⟨combine (· + ·)⟩

instance : Sub Sample := ⟨combine (· - ·)⟩

instance : Mul Sample := ⟨combine (· * ·)⟩

instance : Div Sample := ⟨combine (· / ·)⟩

instance : Neg Sample := ⟨fun sample => ⟨sample.bits ^^^ 0x80000000⟩⟩

/-- The order of numbers. What is not a number compares with nothing. -/
instance : LT Sample := ⟨fun first second => first.toFloat < second.toFloat⟩

instance (first second : Sample) : Decidable (first < second) :=
  inferInstanceAs (Decidable (first.toFloat < second.toFloat))

end Sample

end Patchbay
