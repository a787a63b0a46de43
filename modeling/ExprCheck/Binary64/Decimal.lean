/-
ExprCheck.Binary64.Decimal — decimal numbers read as binary ones.

A decimal number is a whole number scaled by a power of ten. What it is rounded
to is decided on the exact fraction; only magnitudes beyond any format are cut
off before a power of ten is taken.
-/
import ExprCheck.Binary64.Basic
import ExprCheck.Text.Digits

namespace ExprCheck

/-- A decimal number: `digits` times ten to the power `exponent`. -/
structure Decimal where
  negative : Bool
  digits : Nat
  exponent : Int
  deriving DecidableEq, Repr

namespace Binary64

/-- From ten to this power on a number is past the limit, and below ten to minus
this power it is nearer to zero than to the least number. -/
def decimalBound : Int := 400

/-- The number nearest to a decimal number of at most `length` digits. -/
def ofDecimal (d : Decimal) (length : Nat) : Binary64 :=
  if d.digits = 0 then ofFraction d.negative 0 1
  else if d.exponent > decimalBound then .infinite d.negative
  else if d.exponent + length < -decimalBound then ofFraction d.negative 0 1
  else
    ofFraction d.negative
      (d.digits * Nat.pow 10 d.exponent.toNat * Nat.pow 2 unitExponent)
      (Nat.pow 10 (-d.exponent).toNat)

/-- A sign and what follows it. -/
def readSign : List Char → Bool × List Char
  | '-' :: cs => (true, cs)
  | '+' :: cs => (false, cs)
  | cs => (false, cs)

/-- The power of ten after the digits of a number: nothing, or `e` or `E` and a
whole number with a sign or none. -/
def readExponent? : List Char → Option Int
  | [] => some 0
  | e :: cs =>
    let (negative, ds) := readSign cs
    if (e = 'e' ∨ e = 'E') ∧ ¬ ds.isEmpty ∧ ds.all Text.isDigit then
      some (signed negative (Text.ofDigits 10 ds))
    else none

/-- Digits with a point among them or none, and an exponent or none. There is
at least one digit. -/
def readMagnitude? (negative : Bool) (cs : List Char) : Option Binary64 :=
  let whole := cs.takeWhile Text.isDigit
  let rest := cs.dropWhile Text.isDigit
  let (fraction, rest) :=
    match rest with
    | '.' :: ds => (ds.takeWhile Text.isDigit, ds.dropWhile Text.isDigit)
    | _ => ([], rest)
  let ds := whole ++ fraction
  if ds.isEmpty then none
  else
    (readExponent? rest).map fun e =>
      ofDecimal ⟨negative, Text.ofDigits 10 ds, e - fraction.length⟩ ds.length

/-- Reads a number: a sign or none, then decimal digits or the name of a number
that has no digits, in any case. -/
def read? (cs : List Char) : Option Binary64 :=
  let (negative, cs) := readSign cs
  match readMagnitude? negative cs with
  | some x => some x
  | none =>
    let name := String.ofList (cs.map Char.toLower)
    if name = "inf" ∨ name = "infinity" then some (.infinite negative)
    else if name = "nan" then some .nan
    else none

end Binary64

end ExprCheck
