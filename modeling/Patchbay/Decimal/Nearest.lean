/-! Decimals, and the double nearest to one.

Everything is decided in whole numbers: a quotient of two of them is scaled by a
power of two until its whole part has as many bits as a double keeps, and is
then rounded once.
-/

set_option autoImplicit false

namespace Patchbay

structure Decimal where
  digits : Nat
  exponent : Int
  deriving DecidableEq, Repr

def roundHalfEven (numerator denominator : Nat) : Nat :=
  let quotient := numerator / denominator
  let twice := 2 * (numerator % denominator)
  if twice < denominator then quotient
  else if denominator < twice then quotient + 1
  else quotient + quotient % 2

def leadingBit : Nat := 0x10000000000000

def lastBit (numerator denominator : Nat) : Int :=
  let estimate : Int := numerator.log2 - denominator.log2
  let whole :=
    if numerator <<< (-estimate).toNat < denominator <<< estimate.toNat then estimate - 1
    else estimate
  max (whole - 52) (-1074)

/-- The bits of the double nearest to a positive quotient. Rounding up to the
next power of two carries into the exponent by itself. -/
def nearestBits (numerator denominator : Nat) : Nat :=
  let last := lastBit numerator denominator
  let mantissa := roundHalfEven (numerator <<< (-last).toNat) (denominator <<< last.toNat)
  let bits := (last + 1074).toNat * leadingBit + mantissa
  min bits 0x7ff0000000000000

namespace Decimal

def toFloat (decimal : Decimal) : Float :=
  let size : Int := decimal.digits.log2 / 4 + decimal.exponent
  if decimal.digits = 0 ∨ decimal.digits.log2 / 3 + 1 + decimal.exponent < -330 then 0.0
  else if 310 < size then Float.ofBits 0x7ff0000000000000
  else
    Float.ofBits (UInt64.ofNat (nearestBits
      (decimal.digits * Nat.pow 10 decimal.exponent.toNat) (Nat.pow 10 (-decimal.exponent).toNat)))

end Decimal

end Patchbay
