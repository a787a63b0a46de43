/-
ExprCheck.Ty.Compatible — whether a value of one type may meet one of another.

Rules are tried in a fixed order, and the first that applies to either type
decides: a pointer against `nil`, say, is judged by the rule for pointers.
Pointers, slices and maps meet `nil` and what is spelled alike; arrays go by their
count, structs by declaration and arguments, enums by name, tuples component by
component.
-/
import ExprCheck.Ty.Classify
import ExprCheck.Ty.Spelling

namespace ExprCheck.Ty

/-- The types have the same category and the same spelling. -/
def looksLike (a b : Ty) : Bool := a.category = b.category ∧ a.spelling = b.spelling

/-! ## 1. The rules for two types of one sort -/

/-- A type that meets `nil`, against another: `nil`, or the same spelling. -/
def meetsNilOrSame (t other : Ty) : Bool := other.isNil || t.spelling == other.spelling

/-- The number of elements, if it is known. -/
def count? (t : Ty) : Option Nat := t.size.bind ArraySize.count?

/-- Arrays meet whose counts are equal, or unknown on both sides. -/
def meetsArray (array other : Ty) : Bool := other.isArray && array.count? == other.count?

/-- A trait meets itself and the structs that have it. -/
def meetsTrait (trait other : Ty) : Bool :=
  match trait.payload, other.payload with
  | .trait decl, .trait decl' => other.isTrait && decl == decl'
  | .trait decl, .struct decl' _ => other.isStruct && decl'.hasTrait decl
  | _, _ => false

/-- Structs meet of one declaration, and with arguments that look alike if the
declaration has placeholders. -/
def meetsStruct (a b : Ty) : Bool :=
  match a.payload, b.payload with
  | .struct decl args, .struct decl' args' =>
    a.isStruct && b.isStruct && decl.sameAs decl' &&
      (decl.generics.isEmpty ||
        (args.length == args'.length && (args.zip args').all fun (x, y) => x.looksLike y))
  | _, _ => false

/-! ## 2. The order of the rules -/

/-- The verdict of the first rule that applies. There is none for two tuples:
their components decide. -/
def verdict? (ignoreAny : Bool) (a b : Ty) : Option Bool :=
  -- of two types that a rule applies to, it judges the second against the first
  let judge (rule : Ty → Ty → Bool) (applies : Ty → Bool) :=
    some (if applies b then rule b a else rule a b)
  if a.isPointer || b.isPointer then judge meetsNilOrSame isPointer
  else if a.isSlice || b.isSlice then judge meetsNilOrSame isSlice
  else if a.isArray || b.isArray then judge meetsArray isArray
  else if a.isMap || b.isMap then judge meetsNilOrSame isMap
  else if a.isTrait || b.isTrait then judge meetsTrait isTrait
  else if a.admitsNil then some b.isNil
  else if b.admitsNil then some a.isNil
  else if a.isEnum || b.isEnum then some (a.category = b.category ∧ a.name = b.name)
  else if a.isStruct || b.isStruct then some (meetsStruct a b)
  else if a.isAny || b.isAny then some (ignoreAny || (a.isAny && b.isAny))
  else
    match a.category, b.category with
    | .number k, .number k' => some (k = k')
    | .bool, .bool | .str, .str | .void, .void => some true
    | .generic, .generic => some (a.name = b.name)
    | .tuple, .tuple => none
    | _, _ => some false

mutual

/-- A value of one type may meet a value of the other. With `ignoreAny`, the type
`any` meets every type that is neither pointer nor container. -/
def compatible (ignoreAny : Bool) : Ty → Ty → Bool
  | ⟨category, name, pointers, element, payload, size, origin, isPlaceholder⟩, b =>
    match verdict? ignoreAny
        ⟨category, name, pointers, element, payload, size, origin, isPlaceholder⟩ b with
    | some verdict => verdict
    | none => compatiblePayload ignoreAny payload b
termination_by structural a => a

/-- The payload of a tuple, against another tuple. -/
def compatiblePayload (ignoreAny : Bool) : Payload Ty → Ty → Bool
  | .tuple components, b =>
    match b.components? with
    | some components' => compatibleAll ignoreAny components components'
    | none => false
  | .none, _ | .map .., _ | .struct .., _ | .trait _, _ | .enum _, _ | .func _, _ => false
termination_by structural a => a

/-- As many types on either side, each compatible with its partner. -/
def compatibleAll (ignoreAny : Bool) : List Ty → List Ty → Bool
  | [], [] => true
  | a :: as, b :: bs => compatible ignoreAny a b && compatibleAll ignoreAny as bs
  | _, _ => false
termination_by structural a => a

end

theorem compatibleAll_eq (ignoreAny : Bool) (as bs : List Ty) :
    compatibleAll ignoreAny as bs =
      (as.length == bs.length && (as.zip bs).all fun (a, b) => compatible ignoreAny a b) := by
  induction as generalizing bs with
  | nil => cases bs <;> simp [compatibleAll]
  | cons a as ih =>
    cases bs with
    | nil => simp [compatibleAll]
    | cons b bs => simp [compatibleAll, ih, Bool.and_left_comm]

end ExprCheck.Ty
