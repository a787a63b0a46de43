/-
ExprCheck.Scope — the names that an expression may use.
-/
import ExprCheck.Value

namespace ExprCheck

/-- Values by name. Of two values of one name the one declared last counts. -/
structure Scope where
  bindings : List (String × Value)

namespace Scope

def empty : Scope := ⟨[]⟩

instance : EmptyCollection Scope := ⟨empty⟩
instance : Inhabited Scope := ⟨empty⟩

def get? (s : Scope) (name : String) : Option Value := s.bindings.lookup name

/-- Declares a value under a name, as it is. -/
def insert (s : Scope) (name : String) (v : Value) : Scope := ⟨(name, v) :: s.bindings⟩

/-- Declares a variable. -/
def declare (s : Scope) (name : String) (type : Ty) : Scope := s.insert name (.place type name)

/-- Declares a constant, which is written by its name. -/
def declareConst (s : Scope) (name : String) (type : Ty) (c : Constant) : Scope :=
  s.insert name { Value.ofConstant type c with text := name }

@[simp] theorem get?_insert_self (s : Scope) (name : String) (v : Value) :
    (s.insert name v).get? name = some v := by
  simp [insert, get?]

theorem get?_insert_of_ne (s : Scope) {name name' : String} (v : Value) (h : name' ≠ name) :
    (s.insert name v).get? name' = s.get? name' := by
  have : (name' == name) = false := beq_false_of_ne h
  simp [insert, get?, List.lookup_cons, this]

end Scope

end ExprCheck
