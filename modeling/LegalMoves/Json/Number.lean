import LegalMoves.Json.Scan

set_option autoImplicit false

/-!
Numbers in JSON texts: first their parts, then their value. Integers without fraction and exponent
keep their value if it fits 64 bits, signed or not; every other number becomes a float.
-/
namespace LegalMoves.Json

structure Numeral where
  negative : Bool
  whole : List Nat
  fraction : Option (List Nat) := none
  exponent : Option (Bool × List Nat) := none
  deriving DecidableEq, Repr

def digit? (c : Char) : Option Nat :=
  if '0' ≤ c ∧ c ≤ '9' then some (c.toNat - 48) else none

def digits : List Char → List Nat × List Char
  | [] => ([], [])
  | c :: cs =>
    match digit? c with
    | some d => (d :: (digits cs).1, (digits cs).2)
    | none => ([], c :: cs)

def someDigits (cs : List Char) : Except Error (Scanned (List Nat)) :=
  match digits cs with
  | ([], []) => .error .truncated
  | ([], _ :: _) => .error .malformed
  | found => .ok found

namespace Numeral

/-- Reads the whole part: a zero alone or digits that do not begin with one. -/
def scanWhole (cs : List Char) : Except Error (Scanned (List Nat)) := do
  let (ds, cs) ← someDigits cs
  if ds.head? = some 0 ∧ ds.length ≠ 1 then .error .malformed else .ok (ds, cs)

def scanFraction : Reader (Option (List Nat))
  | '.' :: cs => do
    let (ds, cs) ← someDigits cs
    .ok (some ds, cs)
  | cs => .ok (none, cs)

def scanSign : List Char → Bool × List Char
  | '-' :: cs => (true, cs)
  | '+' :: cs => (false, cs)
  | cs => (false, cs)

def scanExponent : Reader (Option (Bool × List Nat))
  | [] => .ok (none, [])
  | c :: cs =>
    if c = 'e' ∨ c = 'E' then do
      let (negative, cs) := scanSign cs
      let (ds, cs) ← someDigits cs
      .ok (some (negative, ds), cs)
    else .ok (none, c :: cs)

def scanUnsigned (negative : Bool) (cs : List Char) : Except Error (Scanned Numeral) := do
  let (whole, cs) ← scanWhole cs
  let (fraction, cs) ← scanFraction cs
  let (exponent, cs) ← scanExponent cs
  .ok (⟨negative, whole, fraction, exponent⟩, cs)

def scan : Reader Numeral
  | '-' :: cs => scanUnsigned true cs
  | cs => scanUnsigned false cs

/-- The digits that still fit 64 bits, as a number, and how many digits are left over. -/
def absorb : (significand : Nat) → List Nat → Nat × Nat
  | significand, [] => (significand, 0)
  | significand, d :: ds =>
    if significand * 10 + d < UInt64.size then absorb (significand * 10 + d) ds
    else (significand, ds.length + 1)

/-- The float `x * 10 ^ exponent`, with one rounding for each factor of at most `10 ^ 308`. There is
none if the number is too large. -/
def scale : (fuel : Nat) → Float → Int → Option Float
  | 0, x, _ => some x
  | fuel + 1, x, exponent =>
    if exponent.natAbs ≤ 308 then
      let power := Float.ofScientific 1 false exponent.natAbs
      if 0 ≤ exponent then
        if (x * power).isInf then none else some (x * power)
      else some (x / power)
    else if x == 0.0 then some x
    else if 0 ≤ exponent then none
    else scale fuel (x / Float.ofScientific 1 false 308) (exponent + 308)

def shift (n : Numeral) : Int :=
  match n.exponent with
  | none => 0
  | some (negative, ds) =>
    let value := Int.ofNat (ds.foldl (fun n d => n * 10 + d) 0)
    if negative then -value else value

/-- The float that a number stands for. Digits that do not fit 64 bits only shift the point. -/
def toFloat? (n : Numeral) : Option Float :=
  let (significand, dropped) := absorb 0 n.whole
  let fraction := n.fraction.getD []
  let (significand, unused) := absorb significand fraction
  let exponent := Int.ofNat dropped - (Int.ofNat fraction.length - Int.ofNat unused) + n.shift
  let magnitude := (UInt64.ofNat significand).toFloat
  -- An exponent that does not fit 31 bits is beyond every float, so it is not worked out.
  let scaled :=
    if n.shift.natAbs < 0x80000000 then scale 4 magnitude exponent
    else if significand = 0 ∨ n.shift < 0 then some 0.0
    else none
  scaled.map fun x => if n.negative then -x else x

def value (n : Numeral) : Except Error Number :=
  let (significand, dropped) := absorb 0 n.whole
  let fits := if n.negative then 0 < significand ∧ significand ≤ 0x8000000000000000 else True
  if n.fraction.isNone ∧ n.exponent.isNone ∧ dropped = 0 ∧ fits then
    .ok (.integer (if n.negative then -Int.ofNat significand else Int.ofNat significand))
  else
    match n.toFloat? with
    | some x => .ok (.float x)
    | none => .error .malformed

end Numeral

def number (cs : List Char) : Except Error (Scanned Number) := do
  let (n, cs) ← Numeral.scan cs
  let value ← n.value
  .ok (value, cs)

def skipNumber (cs : List Char) : Except Error (Scanned Unit) :=
  match Numeral.scan cs with
  | .ok (_, cs) => .ok ((), cs)
  | .error _ => .error .malformed

end LegalMoves.Json
