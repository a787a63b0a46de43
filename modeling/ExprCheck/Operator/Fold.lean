/-
ExprCheck.Operator.Fold — operators on constants.

Sums, differences, products and quotients are taken on floats and brought back to
the form of the result's kind. Bits, shifts and remainders are taken on integers
of 64 bits, unsigned if the left operand is held so.
-/
import ExprCheck.Diagnostic
import ExprCheck.Number.Constant
import ExprCheck.Operator.Basic

namespace ExprCheck.Constant

/-- How two constants lie to each other: as floats if one is a float, as whole
numbers if both are integers. Truth values and texts lie only to their like. -/
def compare? : Constant → Constant → Option Ordering
  | .bool a, .bool b => some (compare a b)
  | .str a, .str b => some (compare a b)
  | .signed a, .signed b => some (compare a.toInt b.toInt)
  | .signed a, .unsigned b => some (compare a.toInt b.toNat)
  | .unsigned a, .signed b => some (compare (a.toNat : Int) b.toInt)
  | .unsigned a, .unsigned b => some (compare a.toNat b.toNat)
  | .float a, .float b => a.compare? b
  | .float a, .signed b => a.compare? (.ofInt b.toInt)
  | .float a, .unsigned b => a.compare? (.ofInt b.toNat)
  | .signed a, .float b => (Binary64.ofInt a.toInt).compare? b
  | .unsigned a, .float b => (Binary64.ofInt a.toNat).compare? b
  | .bool _, _ | _, .bool _ | .str _, _ | _, .str _ => none

/-- What a comparison of two constants yields, if they can be compared. -/
def compareBy? (op : Comparison) (a b : Constant) : Option Bool :=
  (a.compare? b).map op.admits

/-- The sum, difference or product, as a float. -/
def arithmetic (op : Arithmetic) (a b : Constant) : Binary64 :=
  match op with
  | .add => a.toFloat + b.toFloat
  | .sub => a.toFloat - b.toFloat
  | .mul => a.toFloat * b.toFloat

/-- The quotient, as a float. -/
def quotient (a b : Constant) : Binary64 := a.toFloat / b.toFloat

/-- The remainder, of the left operand's sign. A divisor that is zero once it is an
integer is a fault. -/
def remainder (a b : Constant) : Except Fault Constant :=
  match a with
  | .unsigned m =>
    let n := b.toUInt64
    if n = 0 then throw .remainderByZero else return .unsigned (m % n)
  | _ =>
    let n := b.toInt64
    if n = 0 then throw .remainderByZero else return .signed (a.toInt64 % n)

/-- Bits joined one by one. -/
def bitwise (op : Bitwise) (a b : Constant) : Constant :=
  match a with
  | .unsigned m =>
    let n := b.toUInt64
    match op with
    | .and => .unsigned (m &&& n)
    | .or => .unsigned (m ||| n)
    | .xor => .unsigned (m ^^^ n)
  | _ =>
    let m := a.toInt64
    let n := b.toInt64
    match op with
    | .and => .signed (m &&& n)
    | .or => .signed (m ||| n)
    | .xor => .signed (m ^^^ n)

/-- Bits moved by an amount. From 64 on none of them is left, but for the sign that
a signed integer is filled up with when it moves to the right. -/
def shift (op : Shift) (a : Constant) (amount : UInt64) : Constant :=
  match a with
  | .unsigned m =>
    if 64 ≤ amount then .unsigned 0
    else
      match op with
      | .left => .unsigned (m <<< amount)
      | .right => .unsigned (m >>> amount)
  | _ =>
    let m := a.toInt64
    if 64 ≤ amount then
      match op with
      | .left => .signed 0
      | .right => .signed (if m < 0 then -1 else 0)
    else
      match op with
      | .left => .signed (m <<< amount.toInt64)
      | .right => .signed (m >>> amount.toInt64)

end ExprCheck.Constant

namespace ExprCheck

/-- The kind of a shifted number, by the amount: the narrowest one with room for
a single bit moved so far. -/
def NumberKind.ofShift (amount : UInt64) : NumberKind :=
  if amount < 7 then .i8
  else if amount < 8 then .u8
  else if amount < 15 then .i16
  else if amount < 16 then .u16
  else if amount < 31 then .i32
  else if amount < 32 then .u32
  else if amount < 63 then .i64
  else if amount < 64 then .u64
  else if amount < 128 then .f32
  else .f64

end ExprCheck
