import Patchbay.Decimal.Nearest

/-! The shortest decimal that reads back as a given double.

All numbers in a certain interval are nearest to a double. Of the grids of
multiples of a power of ten, the coarsest that meets the interval gives the
fewest digits. On that grid the neighbour closer to the double is taken, and the
larger one if both are as close.
-/

set_option autoImplicit false

namespace Patchbay

/-- A positive double as `mantissa * 2 ^ exponent`. -/
structure BinaryScale where
  mantissa : Nat
  exponent : Int
  /-- The next smaller double is half as far away as the next larger one. -/
  narrow : Bool
  deriving DecidableEq, Repr

namespace BinaryScale

def ofBits (bits : Nat) : BinaryScale :=
  let raised : Nat := bits / leadingBit % 0x800
  let fraction : Nat := bits % leadingBit
  if raised = 0 then ⟨fraction, -1074, false⟩
  else ⟨leadingBit + fraction, (raised : Int) - 1075, fraction = 0 && 1 < raised⟩

def inUnits (scale : BinaryScale) (power : Int) (quarters : Nat) : Nat × Nat :=
  let exponent := scale.exponent - 2
  ((quarters <<< exponent.toNat) * Nat.pow 10 (-power).toNat,
    Nat.pow 10 power.toNat <<< (-exponent).toNat)

/-- The multiple of `10 ^ power` reads back as the double. The ends of the
interval do so if the mantissa is even. -/
def readsBack (scale : BinaryScale) (power : Int) (multiple : Nat) : Bool :=
  let (low, unit) := scale.inUnits power (4 * scale.mantissa - if scale.narrow then 1 else 2)
  let (high, _) := scale.inUnits power (4 * scale.mantissa + 2)
  if scale.mantissa % 2 = 0 then low ≤ multiple * unit && multiple * unit ≤ high
  else low < multiple * unit && multiple * unit < high

def onGrid (scale : BinaryScale) (power : Int) : Option Decimal :=
  let (value, unit) := scale.inUnits power (4 * scale.mantissa)
  let below := value / unit
  let nearer := if 2 * (value % unit) < unit then [below, below + 1] else [below + 1, below]
  (nearer.find? (scale.readsBack power)).map (⟨·, power⟩)

def powers : List Int := (List.range 634).map fun (index : Nat) => 309 - (index : Int)

def shortest (scale : BinaryScale) : Decimal :=
  if scale.mantissa = 0 then ⟨0, 0⟩ else (powers.findSome? scale.onGrid).getD ⟨0, 0⟩

end BinaryScale

namespace Decimal

def text (decimal : Decimal) : String :=
  let digits := Nat.toDigits 10 decimal.digits
  if 0 ≤ decimal.exponent then
    String.ofList (digits ++ List.replicate decimal.exponent.toNat '0') ++ ".0"
  else
    let places := (-decimal.exponent).toNat
    let padded := List.replicate (places + 1 - digits.length) '0' ++ digits
    let whole := padded.length - places
    String.ofList (padded.take whole) ++ "." ++ String.ofList (padded.drop whole)

end Decimal

def signBit : Nat := 0x8000000000000000

/-- The shortest text that reads back as a double, without an exponent. -/
def floatText (value : Float) : String :=
  if value.isNaN then "nan"
  else
    let bits := value.toBits.toNat
    let sign := if bits < signBit then "" else "-"
    if value.isInf then sign ++ "inf"
    else sign ++ (BinaryScale.ofBits (bits % signBit)).shortest.text

end Patchbay
