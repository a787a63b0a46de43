/-
ExprCheck.Expr.Basic — expressions as trees.

A tree has a node for every way in which a span of tokens can be put together, and
also for the ways in which that can go wrong: a token with which nothing starts, a
bracket that is never closed, tokens left over. Whatever went wrong, the rest of
the span is given up there.
-/
import ExprCheck.Token.Basic

namespace ExprCheck

/-- Where reading a span stopped short. -/
structure Stop where
  /-- The value of the token there. -/
  token : String
  position : Position
  /-- There is no token there: the span has ended. -/
  atEnd : Bool
  deriving DecidableEq, Repr

/-- The stop at the front of what is left of a span whose last token is at `last`. -/
def Stop.at (last : Position) : List Token → Stop
  | t :: _ => ⟨t.value, t.position, false⟩
  | [] => ⟨"<eof>", last, true⟩

/-- An expression. The `stop` of a bracketed list is where its closing bracket
should have come, and nothing if it came. -/
inductive Expr where
  | number (token : Token)
  /-- A text, a truth value or `nil`. -/
  | literal (token : Token)
  | name (token : Token)
  /-- One expression in brackets, or several: a tuple. -/
  | group (opening : Token) (items : List Expr) (stop : Option Stop)
  | prefixed (operator : Token) (operand : Expr)
  | binary (left : Expr) (operator : Token) (right : Expr)
  | call (callee : Expr) (opening : Token) (args : List Expr) (stop : Option Stop)
  /-- No expression starts here. -/
  | invalid (stop : Stop)
  /-- An expression with tokens left over after it. -/
  | trailing (e : Expr) (stop : Stop)

namespace Expr

/-- Where the expression starts. -/
def start : Expr → Position
  | .number t | .literal t | .name t => t.position
  | .group opening _ _ => opening.position
  | .prefixed operator _ => operator.position
  | .binary left _ _ => left.start
  | .call callee _ _ _ => callee.start
  | .invalid stop => stop.position
  | .trailing e _ => e.start

end Expr

end ExprCheck
