/-
ExprCheck.ArraySize — counting the elements of an array type.
-/
import ExprCheck.Expr.Eval

namespace ExprCheck.Ty

/-- The type with a known number of elements. -/
def withCount (t : Ty) (count : Nat) : Ty := rename { t with size := some (.fixed count) }

/-- The number of elements that a value gives: a known integer, not negative. -/
def countOf? (v : Value) : Option Nat :=
  if v.type.isInteger then
    match v.const with
    | some (.signed n) => if 0 ≤ n then some n.toInt.toNat else none
    | some (.unsigned n) => some n.toNat
    | _ => none
  else none

/-- Evaluates the size of an array that is written as an expression. One that gives
no number is reported, and the type stays as it is. -/
def resolveSize (env : Env) (t : Ty) : Check Ty :=
  match t.size with
  | some (.deferred tokens) => do
    match countOf? (← evaluate env tokens) with
    | some count => return t.withCount count
    | none =>
      Check.report .invalidArraySize ((tokens.head?.map Token.position).getD .null)
      return t
  | _ => return t

/-- Sizes an array that takes its size from an initialiser of `count` elements. -/
def inferSize (t : Ty) (count : Nat) : Ty :=
  match t.size with
  | some .auto => t.withCount count
  | _ => t

theorem inferSize_eq_or (t : Ty) (count : Nat) :
    t.inferSize count = t ∨ t.inferSize count = t.withCount count := by
  unfold inferSize
  split
  · exact .inr rfl
  · exact .inl rfl

end ExprCheck.Ty
