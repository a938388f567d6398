import LegalMoves.Decimal.Shortest

set_option autoImplicit false

/-!
The text of a double-precision number: its shortest digits, positional while the leading digit
stands between the fifth place after the point and the sixteenth before it, else with a signed
exponent. A positional text always has a point.
-/
namespace LegalMoves.Decimal

def zeros (n : Int) : List Char := List.replicate n.toNat '0'

def trimmed (digits : List Char) : List Char := (digits.reverse.dropWhile (· == '0')).reverse

/-- Digits whose first one has the given exponent, with a point. -/
def positional (digits : List Char) (lead : Int) : List Char :=
  if lead < 0 then '0' :: '.' :: zeros (-lead - 1) ++ digits
  else
    let whole := digits.take (lead.toNat + 1)
    let fraction := digits.drop (lead.toNat + 1)
    let shown := if fraction.isEmpty then ['0'] else fraction
    whole ++ zeros (lead + 1 - digits.length) ++ '.' :: shown

/-- Digits with a point behind the first one, and the exponent of that one. -/
def scientific (digits : List Char) (lead : Int) : List Char :=
  let mantissa := match digits with
    | first :: others@(_ :: _) => first :: '.' :: others
    | short => short
  let sign := if lead < 0 then '-' else '+'
  mantissa ++ 'e' :: sign :: Nat.toDigits 10 lead.natAbs

def magnitudeText (r : Digits) : List Char :=
  let all := Nat.toDigits 10 r.digits
  let lead := r.exponent + all.length - 1
  if -5 ≤ lead ∧ lead ≤ 15 then positional (trimmed all) lead else scientific (trimmed all) lead

def textOfBits (bits : UInt64) : String :=
  let sign := if bits >>> 63 = 0 then [] else ['-']
  let magnitude :=
    if bits <<< 1 = 0 then ['0', '.', '0'] else magnitudeText (Binary.ofBits bits).shortest
  String.ofList (sign ++ magnitude)

def text (x : Float) : String := textOfBits x.toBits

end LegalMoves.Decimal
