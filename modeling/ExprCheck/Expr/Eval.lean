/-
ExprCheck.Expr.Eval — the values of expressions.

A tree is evaluated from the bottom up: what it is made of first, from left to
right, then the node itself. An expression that fails yields the failed value,
and what is made of it fails without a word more, so that one problem is reported
once.
-/
import ExprCheck.Assign
import ExprCheck.Expr.Literal
import ExprCheck.Expr.Parse
import ExprCheck.Operator.Resolve
import ExprCheck.Scope

namespace ExprCheck

/-- What an expression is evaluated in. -/
structure Env where
  scope : Scope
  settings : Settings

instance : Inhabited Env := ⟨⟨.empty, .default⟩⟩

/-! ## 1. Single nodes

The value of a node, from the values of its parts. -/

namespace Value

/-- A number literal. -/
def number (t : Token) : Check Value :=
  match ofNumber? t.value with
  | some v => return v
  | none => do
    Check.report (.invalidSyntax t.value) t.position
    return .failed

/-- A name. -/
def name (env : Env) (t : Token) : Check Value :=
  match env.scope.get? t.value with
  | some v => return v
  | none => do
    Check.report (.unknownName t.value) t.position
    return .failed

/-- Nothing can be read where the tokens stop. -/
def invalid (stop : Stop) : Check Value := do
  Check.report (.invalidSyntax stop.token) stop.position
  return .failed

/-- The texts of several values, with commas between. -/
def texts (vs : List Value) : String := ", ".intercalate (vs.map (·.text))

/-- Values in brackets: one as it is, several as a tuple. -/
def group (items : List Value) : Value :=
  if items.any isFailed then .failed
  else
    match items with
    | [v] => { v with text := "(" ++ v.text ++ ")" }
    | _ => tuple items ("(" ++ texts items ++ ")")

/-- Values in a bracket that was not closed. The missing bracket is reported, unless
the tokens ended in an item that failed. -/
def unclosedGroup (items : List Value) (stop : Stop) : Check Value :=
  if stop.atEnd && items.any isFailed then return .failed else invalid stop

/-- The negated number. It stays an integer where there is room for it. -/
def negated : Constant → Constant
  | .float x => .float (-x)
  | .unsigned n =>
    if n.toNat ≤ Nat.pow 2 63 then .signed (.ofInt (-n.toNat)) else .float (-.ofInt n.toNat)
  | c =>
    let n := c.toInt64
    if n = Int64.minValue then .float (-c.toFloat) else .signed (-n)

/-- The constant of a prefix operation, if the operand takes the operator. -/
def prefixedConst? (operator : Token.Kind) (operand : Value) (const : Option Constant) :
    Option (Option Constant) :=
  match operator with
  | .dash => if operand.type.isNumeric then some (const.map negated) else none
  | .not =>
    if operand.type.isBool then
      match const with
      | some (.bool b) => some (some (.bool !b))
      | _ => some none
    else none
  | _ => none

/-- An operator in front of its operand. A known number takes the narrowest type. -/
def prefixed (env : Env) (operator : Token) (operand : Value) : Check Value :=
  if operand.isFailed then return operand
  else
    let const := if env.settings.foldConstants then operand.known? else none
    match prefixedConst? operator.kind operand const with
    | none => do
      Check.report (.invalidOperand operator.value) operator.position
      return .failed
    | some const =>
      let type :=
        match const.bind Constant.narrowestKind? with
        | some kind => if operand.type.isNumeric then Ty.number kind else operand.type
        | none => operand.type
      return { typed type (operator.value ++ operand.text) with const := const }

/-- An operator between its operands. -/
def binary (env : Env) (left : Value) (operator : Token) (right : Value) : Check Value :=
  if left.isFailed || right.isFailed then return .failed
  else resolve env.settings left operator right

/-- The signature of a value that can be called. -/
def signature? (v : Value) : Option (Signature Ty) :=
  if v.type.isFunc then v.type.signature? else none

/-- A call. Arguments are judged like values stored in the parameters. -/
def call (callee : Value) (opening : Token) (args : List Incoming) : Check Value :=
  if callee.isFailed then return .failed
  else
    match callee.signature? with
    | none => do
      Check.report (.invalidSyntax opening.value) opening.position
      return .failed
    | some signature => do
      let expected := signature.params.length
      let received := args.length
      if received < expected then
        Check.report (.missingArgument expected received) opening.position
      else if expected < received then
        Check.report (.extraArgument expected received) opening.position
      checkAssignEach (signature.params.map (·.type)) args
      return typed signature.result
        (callee.text ++ "(" ++ texts (args.map (·.value)) ++ ")")

/-- A call whose bracket was not closed. The missing bracket is reported, unless the
tokens ended in an argument that was reported. -/
def unclosedCall (args : List Incoming) (stop : Stop) : Check Value :=
  if stop.atEnd && args.getLast?.any (·.reported) then return .failed else invalid stop

end Value

/-! ## 2. Trees -/

namespace Expr

mutual

/-- The value of an expression. -/
def eval (env : Env) : Expr → Check Value
  | .number t => Value.number t
  | .literal t => return Value.ofLiteral t
  | .name t => Value.name env t
  | .group _ items stop => do
    let items ← evalItems env items
    match stop with
    | none => return Value.group items
    | some stop => Value.unclosedGroup items stop
  | .prefixed operator operand => do
    Value.prefixed env operator (← eval env operand)
  | .binary left operator right => do
    let left ← eval env left
    let right ← eval env right
    Value.binary env left operator right
  | .call callee opening args stop => do
    let callee ← eval env callee
    let args ← evalArgs env args
    match stop with
    | none => Value.call callee opening args
    | some stop => Value.unclosedCall args stop
  | .invalid stop => Value.invalid stop
  | .trailing e stop => do
    let _ ← eval env e
    Value.invalid stop
termination_by structural e => e

/-- The values of the items of a group. -/
def evalItems (env : Env) : List Expr → Check (List Value)
  | [] => return []
  | e :: es => do
    let v ← eval env e
    return v :: (← evalItems env es)
termination_by structural es => es

/-- The values of arguments, with their places. -/
def evalArgs (env : Env) : List Expr → Check (List Incoming)
  | [] => return []
  | e :: es => do
    let (v, reported) ← Check.watch (eval env e)
    return ⟨v, e.start, reported⟩ :: (← evalArgs env es)
termination_by structural es => es

end

theorem evalItems_eq_mapM (env : Env) (es : List Expr) :
    evalItems env es = es.mapM (eval env) := by
  induction es with
  | nil => rfl
  | cons e es ih => simp [evalItems, ih]

theorem evalArgs_eq_mapM (env : Env) (es : List Expr) :
    evalArgs env es = es.mapM fun e => do
      let (v, reported) ← Check.watch (eval env e)
      return ⟨v, e.start, reported⟩ := by
  induction es with
  | nil => rfl
  | cons e es ih => simp [evalArgs, ih]

end Expr

/-- The value of a span of tokens. -/
def evaluate (env : Env) (ts : List Token) : Check Value :=
  match Expr.parse? ts with
  | some e => e.eval env
  | none => do
    Check.report .missingExpression .null
    return .failed

end ExprCheck
