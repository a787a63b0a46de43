/-
ExprCheck.Value — what an expression is known to be.

A value has a type, a constant if it is known before the program runs, and its
text. The value that stands for nothing, of an expression that failed, has no
text and the type `void`.
-/
import ExprCheck.Number.Constant
import ExprCheck.Ty.Classify
import ExprCheck.Ty.Spelling

namespace ExprCheck

/-- An expression, by its type and what is known of it. -/
structure Value where
  type : Ty
  const : Option Constant
  /-- It can be assigned to. -/
  isPlace : Bool
  /-- The expression as it is written. -/
  text : String
  /-- The values that a tuple was built from. -/
  components : List Value

namespace Value

/-- A value of which only the type is known. -/
def typed (type : Ty) (text : String) : Value := ⟨type, none, false, text, []⟩

/-- A value known in full, written as its constant. -/
def ofConstant (type : Ty) (c : Constant) : Value := ⟨type, some c, false, c.shown, []⟩

/-- A variable. -/
def place (type : Ty) (text : String) : Value := { typed type text with isPlace := true }

/-- A tuple of values. -/
def tuple (items : List Value) (text : String) : Value :=
  { typed (Ty.tupleOf (items.map (·.type))) text with components := items }

/-- What a failed expression yields. -/
def failed : Value := typed Ty.void ""

instance : Inhabited Value := ⟨failed⟩

def isFailed (v : Value) : Bool := v.type.isVoid && v.text.isEmpty

/-- The constant, of a value whose type holds it directly. -/
def known? (v : Value) : Option Constant := if v.type.isPure then v.const else none

/-- The value is known in full. -/
def isKnown (v : Value) : Bool := v.known?.isSome

end Value

end ExprCheck
