/-
ExprCheck.Operator.Basic — the binary operators and how tightly they bind.
-/
import ExprCheck.Token.Basic

namespace ExprCheck

/-- Connects truth values. -/
inductive Logical where
  | and
  | or
  deriving DecidableEq, Repr

def Logical.apply : Logical → Bool → Bool → Bool
  | .and, a, b => a && b
  | .or, a, b => a || b

/-- Asks how two values lie to each other. -/
inductive Comparison where
  | eq
  | ne
  | lt
  | gt
  | le
  | ge
  deriving DecidableEq, Repr

/-- Whether values that lie so to each other are as the comparison asks. -/
def Comparison.admits : Comparison → Ordering → Bool
  | .eq, o => o == .eq
  | .ne, o => o != .eq
  | .lt, o => o == .lt
  | .gt, o => o == .gt
  | .le, o => o != .gt
  | .ge, o => o != .lt

inductive Arithmetic where
  | add
  | sub
  | mul
  deriving DecidableEq, Repr

inductive Bitwise where
  | and
  | or
  | xor
  deriving DecidableEq, Repr

inductive Shift where
  | left
  | right
  deriving DecidableEq, Repr

/-- A binary operator. -/
inductive Operator where
  | logical (op : Logical)
  | compare (op : Comparison)
  | arithmetic (op : Arithmetic)
  | divide
  | remainder
  | bitwise (op : Bitwise)
  | shift (op : Shift)
  deriving DecidableEq, Repr

namespace Operator

/-- The operator that a token of this kind stands for between two operands. -/
def ofKind? : Token.Kind → Option Operator
  | .or => some (.logical .or)
  | .and => some (.logical .and)
  | .equals => some (.compare .eq)
  | .notEquals => some (.compare .ne)
  | .less => some (.compare .lt)
  | .greater => some (.compare .gt)
  | .lessEquals => some (.compare .le)
  | .greaterEquals => some (.compare .ge)
  | .plus => some (.arithmetic .add)
  | .dash => some (.arithmetic .sub)
  | .star => some (.arithmetic .mul)
  | .slash => some .divide
  | .percent => some .remainder
  | .amper => some (.bitwise .and)
  | .pipe => some (.bitwise .or)
  | .caret => some (.bitwise .xor)
  | .shiftLeft => some (.shift .left)
  | .shiftRight => some (.shift .right)
  | _ => none

/-- Asks for equality or its opposite. -/
def isEquality : Operator → Bool
  | .compare .eq | .compare .ne => true
  | _ => false

end Operator

/-- How tightly an expression holds together, the loosest first. -/
inductive Power where
  | whole
  | or
  | and
  | relation
  | sum
  | product
  | prefixed
  | call
  deriving DecidableEq, Repr

namespace Power

def rank : Power → Nat
  | .whole => 0
  | .or => 1
  | .and => 2
  | .relation => 3
  | .sum => 4
  | .product => 5
  | .prefixed => 6
  | .call => 7

instance : LT Power := ⟨fun a b => a.rank < b.rank⟩

instance (a b : Power) : Decidable (a < b) := inferInstanceAs (Decidable (a.rank < b.rank))

end Power

/-- How tightly the operator holds its operands. Bits are joined like sums, and
masked and shifted like products. -/
def Operator.power : Operator → Power
  | .logical .or => .or
  | .logical .and => .and
  | .compare _ => .relation
  | .arithmetic .add | .arithmetic .sub | .bitwise .or | .bitwise .xor => .sum
  | .arithmetic .mul | .divide | .remainder | .bitwise .and | .shift _ => .product

end ExprCheck
