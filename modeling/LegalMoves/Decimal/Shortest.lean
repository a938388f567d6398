set_option autoImplicit false

/-!
The shortest decimal that reads back as a given binary number. A binary number stands for all reals
that round to it; the decimal is the one with the fewest digits among these reals, of several the
nearest, and of two that are equally near the one with the even last digit. All arithmetic is exact.
-/
namespace LegalMoves.Decimal

/-- The positive number `mantissa * 2 ^ exponent`. `narrow` says that the next smaller number is
only half as far away as the next larger one. -/
structure Binary where
  mantissa : Nat
  exponent : Int
  narrow : Bool
  deriving DecidableEq, Repr

def Binary.ofBits (bits : UInt64) : Binary :=
  let fraction : Nat := (bits &&& 0xfffffffffffff).toNat
  let biased : Nat := (bits >>> 52 &&& 0x7ff).toNat
  if biased = 0 then ⟨fraction, -1074, false⟩
  else ⟨0x10000000000000 + fraction, Int.ofNat biased - 1075, fraction = 0 ∧ 1 < biased⟩

structure Digits where
  digits : Nat
  exponent : Int
  deriving DecidableEq, Repr

def powerAbove (base : Nat) (exponent : Int) : Nat := base.pow exponent.toNat

namespace Binary

/-- A factor for multiples of `10 ^ grid` that makes them comparable with quarters of the last place
of the mantissa times `binaryUnit`. -/
def decimalUnit (x : Binary) (grid : Int) : Nat :=
  powerAbove 10 grid * powerAbove 2 (2 - x.exponent)

def binaryUnit (x : Binary) (grid : Int) : Nat :=
  powerAbove 2 (x.exponent - 2) * powerAbove 10 (-grid)

/-- Whether `d * 10 ^ grid` rounds to `x`. The ends of the interval do so if the mantissa is even.
-/
def readsBack (x : Binary) (grid : Int) (d : Nat) : Bool :=
  let low := (4 * x.mantissa - if x.narrow then 1 else 2) * x.binaryUnit grid
  let high := (4 * x.mantissa + 2) * x.binaryUnit grid
  let value := d * x.decimalUnit grid
  if x.mantissa % 2 = 0 then low ≤ value && value ≤ high else low < value && value < high

/-- The largest `d` with `d * 10 ^ grid` not above `x`. -/
def floorOn (x : Binary) (grid : Int) : Nat :=
  4 * x.mantissa * x.binaryUnit grid / x.decimalUnit grid

def onGrid? (x : Binary) (grid : Int) : Option Digits :=
  let d := x.floorOn grid
  let below := 4 * x.mantissa * x.binaryUnit grid - d * x.decimalUnit grid
  let above := (d + 1) * x.decimalUnit grid - 4 * x.mantissa * x.binaryUnit grid
  let lowerFirst := below < above ∨ below = above ∧ d % 2 = 0
  let candidates := if lowerFirst then [d, d + 1] else [d + 1, d]
  (candidates.find? (x.readsBack grid)).map (⟨·, grid⟩)

def magnitude (x : Binary) : Int :=
  let num := x.mantissa * powerAbove 2 x.exponent
  let den := powerAbove 2 (-x.exponent)
  if den ≤ num then (Nat.toDigits 10 (num / den)).length - 1
  else
    let places := (Nat.toDigits 10 (den / num)).length
    if den ≤ num * powerAbove 10 (places - 1) then 1 - places else -places

/-- The shortest decimal of a positive number. Seventeen digits are enough for every double. -/
def shortest (x : Binary) : Digits :=
  let grid (count : Nat) : Int := x.magnitude - count
  ((List.range 17).findSome? fun count => x.onGrid? (grid count)).getD
    ⟨x.floorOn (grid 16), grid 16⟩

end Binary
end LegalMoves.Decimal
