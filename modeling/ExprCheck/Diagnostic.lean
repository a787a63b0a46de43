/-
ExprCheck.Diagnostic — problems, and the sink they are reported to.

A problem is a cause; its key names it in a catalogue of messages, its arguments
fill the catalogue's entry, and its message says it in words. Checks report
problems and go on, so a run ends with a list of them. The one thing that ends a
run early is a `Fault`.
-/
import ExprCheck.Source
import ExprCheck.Text.Quoted

namespace ExprCheck

/-! ## 1. Problems -/

/-- What is wrong. -/
inductive Problem where
  /-- No token starts with this character. -/
  | unrecognised (token : String)
  /-- The expression cannot go on with this token. -/
  | invalidSyntax (token : String)
  /-- No value has this name. -/
  | unknownName (name : String)
  /-- The token is no binary operator. -/
  | invalidOperator (operator : String)
  /-- A logical operator has an operand that is no truth value. -/
  | logicalNotBool
  /-- The operator takes no such pair of operand types. -/
  | incompatibleOperands (left right : String)
  /-- The value is not of the type that is asked for. -/
  | incompatibleType (expected received : String)
  /-- Operands of this sort do not take the operator. -/
  | operatorNotFor (operator sort : String)
  /-- The operand does not take the prefix operator. -/
  | invalidOperand (operator : String)
  | divideByZero
  /-- The amount of a shift is no unsigned integer. -/
  | shiftNotUnsigned
  /-- The constant is out of the type's range. -/
  | overflow
  | invalidArraySize
  | missingExpression
  | missingArgument (expected received : Nat)
  | extraArgument (expected received : Nat)
  /-- A function that returns something returns nothing. -/
  | returnRequired
  /-- A function that returns nothing returns something. -/
  | returnInVoid
  | extraReturn
  | missingReturn
  deriving DecidableEq, Repr

namespace Problem

/-- The name of the problem in a catalogue of messages. -/
def key : Problem → String
  | .unrecognised _ => "unrecognised_token"
  | .invalidSyntax _ => "invalid_syntax"
  | .unknownName _ => "id_noexist"
  | .invalidOperator _ => "invalid_operator"
  | .logicalNotBool => "logical_not_bool"
  | .incompatibleOperands .. => "incompatible_datatype"
  | .incompatibleType .. => "incompatible_type"
  | .operatorNotFor _ sort => "operator_notfor_" ++ sort
  | .invalidOperand _ => "invalid_type_unary_operator"
  | .divideByZero => "divide_by_zero"
  | .shiftNotUnsigned => "bitshift_must_unsigned"
  | .overflow => "overflow_limits"
  | .invalidArraySize => "invalid_array_size"
  | .missingExpression => "missing_expr"
  | .missingArgument .. => "missing_argument"
  | .extraArgument .. => "argument_overflow"
  | .returnRequired => "require_return_value"
  | .returnInVoid => "void_function_return_value"
  | .extraReturn => "overflow_return"
  | .missingReturn => "missing_multi_return"

/-- What fills the catalogue's entry, in its order. The entry for operands names
the right one first. -/
def args : Problem → List String
  | .unrecognised t | .invalidSyntax t => [t]
  | .unknownName n => [n]
  | .invalidOperator o | .operatorNotFor o _ | .invalidOperand o => [o]
  | .incompatibleOperands left right => [right, left]
  | .incompatibleType expected received => [expected, received]
  | .missingArgument expected received | .extraArgument expected received =>
    [toString expected, toString received]
  | .logicalNotBool | .divideByZero | .shiftNotUnsigned | .overflow | .invalidArraySize
  | .missingExpression | .returnRequired | .returnInVoid | .extraReturn | .missingReturn => []

/-- The problem in words. -/
def message : Problem → String
  | .unrecognised t => "unrecognised token: " ++ Text.quote t
  | .invalidSyntax t => "invalid syntax near " ++ Text.quote t
  | .unknownName n => "identifier " ++ Text.quote n ++ " does not exist"
  | .invalidOperator o => "invalid operator " ++ Text.quote o
  | .logicalNotBool => "logical operands must be booleans"
  | .incompatibleOperands left right => left ++ " and " ++ right ++ " are not compatible"
  | .incompatibleType expected received => "expected " ++ expected ++ ", received " ++ received
  | .operatorNotFor o sort => "operator " ++ Text.quote o ++ " is not defined for " ++ sort
  | .invalidOperand o => "invalid operand type for unary " ++ Text.quote o
  | .divideByZero => "division by constant zero"
  | .shiftNotUnsigned => "shift amount must be unsigned"
  | .overflow => "constant overflows the target type"
  | .invalidArraySize => "array size must be a non-negative integer constant"
  | .missingExpression => "missing expression"
  | .missingArgument expected received =>
    "missing arguments: expected " ++ toString expected ++ ", received " ++ toString received
  | .extraArgument expected received =>
    "too many arguments: expected " ++ toString expected ++ ", received " ++ toString received
  | .returnRequired => "non-void function must return a value"
  | .returnInVoid => "void function cannot return a value"
  | .extraReturn => "too many return values"
  | .missingReturn => "missing return values"

end Problem

/-- A problem and the place of the token that shows it. -/
structure Diagnostic where
  problem : Problem
  position : Position
  deriving DecidableEq, Repr

/-! ## 2. The sink -/

/-- The problems reported so far, the first one first. -/
structure Diagnostics where
  entries : Array Diagnostic
  deriving DecidableEq, Repr

namespace Diagnostics

def empty : Diagnostics := ⟨#[]⟩

instance : EmptyCollection Diagnostics := ⟨empty⟩
instance : Inhabited Diagnostics := ⟨empty⟩

def toList (ds : Diagnostics) : List Diagnostic := ds.entries.toList

def size (ds : Diagnostics) : Nat := ds.entries.size

def isEmpty (ds : Diagnostics) : Bool := ds.entries.isEmpty

def push (ds : Diagnostics) (problem : Problem) (position : Position) : Diagnostics :=
  ⟨ds.entries.push ⟨problem, position⟩⟩

/-- The keys of the problems, in the order of their report. -/
def keys (ds : Diagnostics) : List String := ds.toList.map (·.problem.key)

/-- How many problems have the key. -/
def count (ds : Diagnostics) (key : String) : Nat := ds.keys.count key

def has (ds : Diagnostics) (key : String) : Bool := ds.keys.contains key

@[simp] theorem toList_empty : empty.toList = [] := rfl

@[simp] theorem toList_push (ds : Diagnostics) (p : Problem) (pos : Position) :
    (ds.push p pos).toList = ds.toList ++ [⟨p, pos⟩] := by
  simp [push, toList]

@[simp] theorem length_toList (ds : Diagnostics) : ds.toList.length = ds.size := by
  simp [toList, size]

end Diagnostics

/-! ## 3. Checks -/

/-- What ends a run. -/
inductive Fault where
  /-- A remainder was asked for whose divisor is zero once it is an integer. -/
  | remainderByZero
  deriving DecidableEq, Repr

/-- A check reads and extends the sink, and may end the run. -/
abbrev Check := StateT Diagnostics (Except Fault)

namespace Check

/-- Reports a problem and goes on. -/
def report (problem : Problem) (position : Position) : Check Unit :=
  modify (·.push problem position)

/-- The result of a check, and whether it reported anything. -/
def watch (check : Check α) : Check (α × Bool) := do
  let before := (← get).size
  let a ← check
  return (a, before < (← get).size)

end Check

end ExprCheck
