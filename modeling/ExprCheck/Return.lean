/-
ExprCheck.Return — return statements against the signature of their function.

A function that returns a tuple may be given its components one by one or as a
single tuple. A statement without expressions returns the named results, where
there are such. Problems with what is returned are reported at the statement.
-/
import ExprCheck.Expr.Eval
import ExprCheck.Token.Split

namespace ExprCheck

/-- The parts of a span between separators. Where one is missing that is reported. -/
def Token.checkParts (ts : List Token) (separator : Kind) (mustHold : Bool) :
    Check (List (List Token)) := do
  let split := Token.split ts separator mustHold
  split.missing.forM (Check.report .missingExpression)
  return split.parts

namespace Return

/-- The values that a statement returns, with the place of the statement. -/
def evalParts (env : Env) (position : Position) (ts : List Token) : Check (List Incoming) := do
  let parts ← Token.checkParts ts .comma true
  (parts.filter (!·.isEmpty)).mapM fun part => do
    let (v, reported) ← Check.watch (evaluate env part)
    return ⟨v, position, reported⟩

/-- Checks what a function returns that returns a single value. -/
def checkSingle (position : Position) (type : Ty) (returned : List Incoming) : Check Unit := do
  if 1 < returned.length then
    Check.report .extraReturn position
  checkAssignEach [type] returned

/-- The components of a tuple as values. One that was not written out component by
component is known by its types only. -/
def componentValues (tuple : Value) (types : List Ty) : List Value :=
  types.mapIdx fun i type => tuple.components[i]?.getD (.typed type tuple.text)

/-- Checks a single expression against the types of several results: it has to be a
tuple of as many. -/
def checkTuple (position : Position) (types : List Ty) (tuple : Incoming) : Check Unit :=
  if tuple.reported then return
  else
    match if tuple.value.type.isTuple then tuple.value.type.components? else none with
    | none => Check.report .missingReturn position
    | some components =>
      if components.length < types.length then Check.report .missingReturn position
      else if types.length < components.length then Check.report .extraReturn position
      else
        checkAssignEach types
          ((componentValues tuple.value components).map fun v => ⟨v, position, false⟩)

/-- Checks what a function returns that returns several values. -/
def checkSeveral (position : Position) (types : List Ty) (returned : List Incoming) :
    Check Unit := do
  match returned with
  | [only] => checkTuple position types only
  | _ =>
    if types.length < returned.length then
      Check.report .extraReturn position
    checkAssignEach types returned

/-- The values of the named results: the first name for a single result, every name
for a tuple. -/
def readBack (env : Env) (signature : Signature Ty) : Check (List Value) :=
  let names := signature.results.filter (· ≠ env.settings.ignoreIdentifier)
  let names := if signature.result.isTuple then names else names.take 1
  names.mapM fun name => evaluate env [Token.synthetic .identifier name]

end Return

open Return in
/-- Checks a return statement at `position` with the expressions `ts`, and yields the
values that it returns. -/
def checkReturn (env : Env) (signature : Signature Ty) (position : Position) (ts : List Token) :
    Check (List Value) := do
  let type := signature.result
  if (Token.withoutEof ts).isEmpty then
    if signature.namesResult env.settings.ignoreIdentifier then
      readBack env signature
    else
      unless type.isVoid do
        Check.report .returnRequired position
      return []
  else
    if type.isVoid then
      Check.report .returnInVoid position
    let returned ← evalParts env position (Token.withoutEof ts)
    unless type.isVoid do
      match type.components? with
      | some types => checkSeveral position types returned
      | none => checkSingle position type returned
    return returned.map (·.value)

end ExprCheck
