/-
ExprCheck.Expr.Literal — values that are written out.
-/
import ExprCheck.Value

namespace ExprCheck

/-- The constant of a whole number below `2 ^ 64`: signed if it can be. -/
def Constant.ofNat (n : Nat) : Constant :=
  if n < Nat.pow 2 63 then .signed (.ofNat n) else .unsigned (.ofNat n)

/-- The constant that a number literal writes: hexadecimal digits after `0x`, a float
if it has a point or an exponent, and else a whole number where it fits in 64
bits. -/
def readNumber? (literal : List Char) : Option Constant :=
  match literal with
  | '0' :: 'x' :: digits | '0' :: 'X' :: digits => (Text.readHex64? digits).map .ofNat
  | _ =>
    if literal.any fun c => c = '.' || c = 'e' || c = 'E' then
      (Binary64.read? literal).map .float
    else
      match Text.readDecimal64? literal with
      | some n => some (.ofNat n)
      | none => (Binary64.read? literal).map .float

namespace Value

/-- A number as it is written, of the narrowest type that has it. -/
def ofNumber? (literal : String) : Option Value := do
  let c ← readNumber? literal.toList
  let kind ← c.narrowestKind?
  return { ofConstant (Ty.number kind) c with text := literal }

def ofBool (b : Bool) : Value := ofConstant Ty.bool (.bool b)

def ofStr (s : String) : Value := ofConstant Ty.str (.str s)

/-- The value `nil`, which is no constant. -/
def nil : Value := typed Ty.nil "nil"

/-- The value of a literal that is no number. -/
def ofLiteral (t : Token) : Value :=
  match t.kind with
  | .string => ofStr t.value
  | .trueWord => ofBool true
  | .falseWord => ofBool false
  | _ => nil

end Value

end ExprCheck
