/-
ExprCheck.Number.Constant — values known before the program runs.

A constant is a truth value, a text or a number; a number is held as a signed
or unsigned integer of 64 bits or as a float, whatever the width of the type it
belongs to. `cast` moves a number to the form that a kind is held in.
-/
import ExprCheck.Binary64.Shortest
import ExprCheck.Number.Kind
import ExprCheck.Text.Quoted

namespace ExprCheck

/-- A value known before the program runs. -/
inductive Constant where
  | bool (b : Bool)
  | str (s : String)
  | signed (n : Int64)
  | unsigned (n : UInt64)
  | float (x : Binary64)
  deriving DecidableEq, Inhabited

namespace Constant

/-! ## 1. Numbers -/

def isNumeric : Constant → Bool
  | .signed _ | .unsigned _ | .float _ => true
  | .bool _ | .str _ => false

/-- The whole number held as an integer. -/
def integer? : Constant → Option Int
  | .signed n => some n.toInt
  | .unsigned n => some n.toNat
  | .float _ | .bool _ | .str _ => none

/-- The number as a float. What is no number counts as zero. -/
def toFloat : Constant → Binary64
  | .signed n => .ofInt n.toInt
  | .unsigned n => .ofInt n.toNat
  | .float x => x
  | .bool _ | .str _ => .zero

/-- The number as a signed integer: integers wrap, floats lose their fraction and
stop at the ends of the range. What is no number counts as zero. -/
def toInt64 : Constant → Int64
  | .signed n => n
  | .unsigned n => n.toInt64
  | .float x => x.toInt64
  | .bool _ | .str _ => 0

/-- The number as an unsigned integer, by the rules of `toInt64`. -/
def toUInt64 : Constant → UInt64
  | .signed n => n.toUInt64
  | .unsigned n => n
  | .float x => x.toUInt64
  | .bool _ | .str _ => 0

/-- The constant is a number, and it is zero. -/
def isZero : Constant → Bool
  | .signed n => n == 0
  | .unsigned n => n == 0
  | .float x => x.isZero
  | .bool _ | .str _ => false

/-- The number in the form that `kind` is held in. -/
def cast (kind : NumberKind) (c : Constant) : Constant :=
  if kind.isFloat then .float c.toFloat
  else if kind.isSigned then .signed c.toInt64
  else .unsigned c.toUInt64

/-- Zero in the form that `kind` is held in. -/
def zero (kind : NumberKind) : Constant := cast kind (.signed 0)

/-! ## 2. Widths -/

/-- How many bits a signed integer needs: 8, 16, 32 or 64. -/
def bitsOfSigned (n : Int64) : Nat :=
  if NumberKind.i8.Holds n.toInt then 8
  else if NumberKind.i16.Holds n.toInt then 16
  else if NumberKind.i32.Holds n.toInt then 32
  else 64

/-- How many bits an unsigned integer needs: 8, 16, 32 or 64. -/
def bitsOfUnsigned (n : UInt64) : Nat :=
  if NumberKind.u8.Holds n.toNat then 8
  else if NumberKind.u16.Holds n.toNat then 16
  else if NumberKind.u32.Holds n.toNat then 32
  else 64

/-- How many bits a float needs: 32 if the shorter format has it, or 64. -/
def bitsOfFloat (x : Binary64) : Nat := if x.isExactIn32 then 32 else 64

/-- The narrowest kind of the number's own family that has it. -/
def narrowestKind? : Constant → Option NumberKind
  | .signed n => some (.signedOfBits (bitsOfSigned n))
  | .unsigned n => some (.unsignedOfBits (bitsOfUnsigned n))
  | .float x => some (.floatOfBits (bitsOfFloat x))
  | .bool _ | .str _ => none

/-- The number stays finite in a float of so many bits. -/
def isFiniteIn (bits : Nat) (x : Binary64) : Bool :=
  if bits = 32 then x.isFiniteIn32 else x.isFinite

/-- The text is a number, and it stays finite in a float of so many bits. -/
def textIsFiniteIn (bits : Nat) (text : String) : Bool :=
  (Binary64.read? text.toList).any (isFiniteIn bits)

/-- The integer is in the range of the integer kind. The greatest value of a kind is an
unsigned word: a signed word is compared with it as a whole number, or as an unsigned word
once it is known not to be negative. -/
def isInRange (kind : NumberKind) : Constant → Bool
  | .signed n =>
    if kind.isSigned then kind.leastWord ≤ n && n.toInt ≤ kind.greatestWord.toNat
    else 0 ≤ n && n.toUInt64 ≤ kind.greatestWord
  | .unsigned n => n ≤ kind.greatestWord
  | .float _ | .bool _ | .str _ => false

/-- The number may be stored in a variable of numeric type: an integer kind has
to have it as an integer, a float has to keep it finite. For a float the number
itself is tested and not its scientific text, which comes to the same (`fits_eq`). -/
def fits (kind : NumberKind) (c : Constant) : Bool :=
  if kind.isFloat then isFiniteIn kind.bits c.toFloat else c.isInRange kind

/-! ## 3. Text -/

/-- The constant as it is shown. -/
def shown : Constant → String
  | .bool b => if b then "true" else "false"
  | .str s => Text.quote s
  | .signed n => toString n.toInt
  | .unsigned n => toString n.toNat
  | .float x => x.shown

end Constant

end ExprCheck
