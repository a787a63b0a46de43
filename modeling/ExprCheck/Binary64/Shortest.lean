/-
ExprCheck.Binary64.Shortest — the fewest digits that read back.

The decimals that round to a number fill the space half way to its neighbours,
the ends included if its last significant bit is zero. The shortest of them lies
on the coarsest grid of powers of ten that has a point there, and the nearest
point of a grid is one of the two around the number.
-/
import ExprCheck.Binary64.Decimal

namespace ExprCheck.Binary64

open BinaryFormat (binary64)

/-- The decimals that round to a number, in half units. -/
structure Interval where
  low : Nat
  high : Nat
  closed : Bool

/-- The decimals that round to `n` units. Below a power of two the numbers lie
closer together than above it. -/
def roundingInterval (n : Nat) : Interval where
  low := 2 * n - Nat.pow 2 (binary64.step (n - 1))
  high := 2 * n + Nat.pow 2 (binary64.step n)
  closed := n / Nat.pow 2 (binary64.step n) % 2 = 0

/-- Whether a fraction of units lies in the interval. -/
def Interval.contains (i : Interval) (num den : Nat) : Bool :=
  if i.closed then i.low * den ≤ 2 * num && 2 * num ≤ i.high * den
  else i.low * den < 2 * num && 2 * num < i.high * den

/-- The multiple of ten to the power `e` nearest to `n` units among those that
round to it, by its digits. Of two that are equally near it is the larger. -/
def nearestOn (n : Nat) (e : Int) : Option Nat :=
  let grid := Nat.pow 10 e.toNat * Nat.pow 2 unitExponent
  let den := Nat.pow 10 (-e).toNat
  let interval := roundingInterval n
  let below := n * den / grid
  let fits (d : Nat) : Bool := interval.contains (d * grid) den
  match fits below, fits (below + 1) with
  | true, true =>
    if 2 * (n * den) < (2 * below + 1) * grid then some below else some (below + 1)
  | true, false => some below
  | false, true => some (below + 1)
  | false, false => none

/-- The powers of ten of the grids, the coarsest first. The largest number has
309 digits, and the numbers are never closer together than the last grid. -/
def gridExponents : List Int := (List.range 633).map fun i : Nat => 308 - (i : Int)

/-- The shortest decimal that rounds to `n` units, the nearest of those. -/
def shortest (n : Nat) : Nat × Int :=
  (gridExponents.findSome? fun e => (nearestOn n e).map (·, e)).getD (0, 0)

/-! ## Written numbers -/

/-- Digits with a point after the first, and the power of ten of the first. -/
def scientificForm (digits : List Char) (exponent : Int) : List Char :=
  let mantissa :=
    match digits with
    | d :: d' :: ds => d :: '.' :: d' :: ds
    | ds => ds
  mantissa ++ 'e' :: (toString exponent).toList

/-- Digits around a point, of which the first stands for ten to the power
`exponent`. Zeros fill the gaps, and there is a digit on either side. -/
def positionalForm (digits : List Char) (exponent : Int) : List Char :=
  if exponent < 0 then
    '0' :: '.' :: List.replicate (-exponent - 1).toNat '0' ++ digits
  else
    let whole := exponent.toNat + 1
    let fraction := digits.drop whole
    digits.take whole ++ List.replicate (whole - digits.length) '0' ++
      '.' :: (if fraction.isEmpty then ['0'] else fraction)

/-- The digits of `n` units and the power of ten that the first stands for. -/
def digitsOf (n : Nat) : List Char × Int :=
  if n = 0 then (['0'], 0)
  else
    let (d, e) := shortest n
    let digits := Nat.toDigits 10 d
    (digits, e + digits.length - 1)

/-- The number in its shortest digits, positionally where the power of ten of the
first digit allows. -/
def written (positional : Int → Bool) : Binary64 → String
  | .finite s n _ =>
    let (digits, exponent) := digitsOf n
    let form := if positional exponent then positionalForm else scientificForm
    String.ofList ((if s then ['-'] else []) ++ form digits exponent)
  | .infinite s => if s then "-inf" else "inf"
  | .nan => "NaN"

/-- Numbers are shown positionally from 0.0001 up to 10 ^ 16. -/
def shown (x : Binary64) : String := written (fun e => -4 ≤ e && e < 16) x

/-- The number with a single digit before the point, and a power of ten. -/
def scientific (x : Binary64) : String := written (fun _ => false) x

end ExprCheck.Binary64
