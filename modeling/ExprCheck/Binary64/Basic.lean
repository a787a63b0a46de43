/-
ExprCheck.Binary64.Basic — floating-point numbers of 64 bits and their arithmetic.

A number is written out in full: a sign and a whole number of units of 2 ^ -1074,
an infinity, or no number at all. Sums, products and quotients are exact
fractions of units, rounded once. There is one NaN: nothing that this library
prints or decides tells two of them apart.
-/
import ExprCheck.Binary64.Format

namespace ExprCheck

/-- A floating-point number of 64 bits. -/
inductive Binary64 where
  | finite (negative : Bool) (units : Nat) (held : BinaryFormat.binary64.Holds units)
  | infinite (negative : Bool)
  | nan
  deriving DecidableEq

namespace Binary64

open BinaryFormat (binary64 binary32)

/-! ## 1. Rounding -/

/-- The number nearest to a fraction of units, with a sign. Past the limit that
is an infinity. -/
def ofFraction (negative : Bool) (num den : Nat) : Binary64 :=
  if h : binary64.round num den < Nat.pow 2 binary64.limit then
    .finite negative (binary64.round num den) (binary64.holds_round h)
  else .infinite negative

/-- The number nearest to a whole number. -/
def ofInt (n : Int) : Binary64 := ofFraction (n < 0) (n.natAbs * Nat.pow 2 unitExponent) 1

def zero : Binary64 := ofInt 0

instance : Inhabited Binary64 := ⟨zero⟩

/-! ## 2. Arithmetic -/

/-- A whole number with a sign of its own. -/
def signed (negative : Bool) (n : Nat) : Int := if negative then -n else n

def neg : Binary64 → Binary64
  | .finite s n h => .finite (!s) n h
  | .infinite s => .infinite (!s)
  | .nan => .nan

/-- The sum. A sum of zero is negative only if both numbers are. -/
def add : Binary64 → Binary64 → Binary64
  | .finite s m _, .finite t n _ =>
    let sum := signed s m + signed t n
    ofFraction (sum < 0 || (sum == 0 && s && t)) sum.natAbs 1
  | .infinite s, .infinite t => if s = t then .infinite s else .nan
  | .infinite s, .finite .. => .infinite s
  | .finite .., .infinite t => .infinite t
  | .nan, _ | _, .nan => .nan

def sub (x y : Binary64) : Binary64 := x.add y.neg

/-- The product. Zero times infinity is no number. -/
def mul : Binary64 → Binary64 → Binary64
  | .finite s m _, .finite t n _ => ofFraction (s != t) (m * n) (Nat.pow 2 unitExponent)
  | .infinite s, .infinite t => .infinite (s != t)
  | .infinite s, .finite t n _ => if n = 0 then .nan else .infinite (s != t)
  | .finite s m _, .infinite t => if m = 0 then .nan else .infinite (s != t)
  | .nan, _ | _, .nan => .nan

/-- The quotient. Zero by zero and infinity by infinity are no numbers. -/
def div : Binary64 → Binary64 → Binary64
  | .finite s m _, .finite t n _ =>
    if n = 0 then
      if m = 0 then .nan else .infinite (s != t)
    else ofFraction (s != t) (m * Nat.pow 2 unitExponent) n
  | .infinite _, .infinite _ => .nan
  | .infinite s, .finite t _ _ => .infinite (s != t)
  | .finite s _ _, .infinite t => ofFraction (s != t) 0 1
  | .nan, _ | _, .nan => .nan

instance : Neg Binary64 := ⟨neg⟩
instance : Add Binary64 := ⟨add⟩
instance : Sub Binary64 := ⟨sub⟩
instance : Mul Binary64 := ⟨mul⟩
instance : Div Binary64 := ⟨div⟩

/-! ## 3. Order -/

/-- Where the number lies on the line of units. The infinities lie just past
the largest numbers. -/
def place? : Binary64 → Option Int
  | .finite s n _ => some (signed s n)
  | .infinite s => some (signed s (Nat.pow 2 binary64.limit))
  | .nan => none

/-- How two numbers lie to each other. The two zeros are equal; NaN has no place. -/
def compare? (x y : Binary64) : Option Ordering :=
  match x.place?, y.place? with
  | some m, some n => some (compare m n)
  | _, _ => none

def isZero (x : Binary64) : Bool := x.place? == some 0

def isNegative (x : Binary64) : Bool := x.place?.any (· < 0)

/-! ## 4. Whole numbers and narrower formats -/

/-- The number without its fraction, taken into a range: what lies outside goes
to the nearer end, and NaN to zero. -/
def truncateTo (lo hi : Int) : Binary64 → Int
  | .finite s n _ => max lo (min hi (signed s (n / Nat.pow 2 unitExponent)))
  | .infinite s => if s then lo else hi
  | .nan => 0

def toInt64 (x : Binary64) : Int64 :=
  .ofInt (x.truncateTo Int64.minValue.toInt Int64.maxValue.toInt)

def toUInt64 (x : Binary64) : UInt64 :=
  .ofNat (x.truncateTo 0 (Nat.pow 2 64 - 1)).toNat

def isFinite : Binary64 → Bool
  | .finite .. => true
  | _ => false

/-- The number stays finite when it is rounded to 32 bits. -/
def isFiniteIn32 : Binary64 → Bool
  | .finite _ n _ => binary32.round n 1 < Nat.pow 2 binary32.limit
  | _ => false

/-- The number is one of the 32-bit format. NaN is none. -/
def isExactIn32 : Binary64 → Bool
  | .finite _ n _ => binary32.Holds n
  | .infinite _ => true
  | .nan => false

end Binary64

end ExprCheck
