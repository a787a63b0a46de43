/-
ExprCheck.Assign — whether a value may be stored in a variable of a type.

Where the value is known, a numeric type asks only whether it has the value: a
known integer goes into every integer type that holds it, and every known number
into a float that keeps it finite. Everything else goes by the types.
-/
import ExprCheck.Diagnostic
import ExprCheck.Ty.Compatible
import ExprCheck.Value

namespace ExprCheck

/-- What the range of a numeric target says about a known value, where the range
decides. -/
def rangeVerdict? (target : Ty) (value : Value) : Option Bool :=
  match target.numberKind?, value.known? with
  | some kind, some c =>
    if (kind.isFloat && c.isNumeric) || (kind.isInteger && value.type.isInteger) then
      some (c.fits kind)
    else none
  | _, _ => none

/-- What is wrong with storing the value in a variable of the target type. -/
def assignProblem? (ignoreAny : Bool) (target : Ty) (value : Value) : Option Problem :=
  match rangeVerdict? target value with
  | some fits => if fits then none else some .overflow
  | none =>
    if Ty.compatible ignoreAny target value.type then none
    else some (.incompatibleType target.spelling value.type.spelling)

/-- A value on its way into a variable. -/
structure Incoming where
  value : Value
  /-- Where a problem with the value is reported. -/
  position : Position
  /-- Finding the value out reported a problem already. -/
  reported : Bool

/-- Reports what is wrong with storing the value, unless a problem with the value
itself was reported already or there is no value. -/
def checkAssign (ignoreAny : Bool) (target : Ty) (incoming : Incoming) : Check Unit :=
  if incoming.reported || incoming.value.text.isEmpty then return
  else
    match assignProblem? ignoreAny target incoming.value with
    | some problem => Check.report problem incoming.position
    | none => return

/-- Checks several values, each against the type at its place, as far as both lists
go. The type `any` takes none of them but its own. -/
def checkAssignEach : List Ty → List Incoming → Check Unit
  | target :: targets, incoming :: rest => do
    checkAssign false target incoming
    checkAssignEach targets rest
  | _, _ => return

end ExprCheck
