/-
ExprCheck.Expr.Parse — from tokens to an expression.

`parseExpr` reads an operand and then every operator that binds more tightly than
`power`, with what it takes on its right; so operators of one power group to the
left. Reading consumes tokens from the front and never fails: what cannot be read
becomes a node of the tree.
-/
import ExprCheck.Expr.Basic
import ExprCheck.Operator.Basic

namespace ExprCheck.Expr

/-- What is left of the tokens `ts`. -/
abbrev Rest (ts : List Token) := { rest : List Token // rest.length ≤ ts.length }

/-- All of them are left. -/
def Rest.all (ts : List Token) : Rest ts := ⟨ts, Nat.le_refl _⟩

/-- None of them is left. -/
def Rest.none (ts : List Token) : Rest ts := ⟨[], Nat.zero_le _⟩

/-- What is left of a part is left of the whole. -/
def Rest.widen {ts part : List Token} (h : part.length ≤ ts.length) (rest : Rest part) : Rest ts :=
  ⟨rest.1, Nat.le_trans rest.2 h⟩

/-- What is left after the first token. -/
def Rest.tail (t : Token) {ts : List Token} (rest : Rest ts) : Rest (t :: ts) :=
  rest.widen (Nat.le_succ _)

mutual

/-- An expression whose operators all bind more tightly than `power`. -/
def parseExpr (last : Position) (power : Power) (ts : List Token) : Expr × Rest ts :=
  match parseOperand last ts with
  | (left, ⟨rest, h⟩) =>
    let (e, after) := parseTail last power left rest
    (e, after.widen h)
termination_by 4 * ts.length + 2

/-- An expression that no operator joins to another at its front. -/
def parseOperand (last : Position) (ts : List Token) : Expr × Rest ts :=
  match ts with
  | [] => (.invalid (.at last []), .none _)
  | t :: ts =>
    match t.kind with
    | .number => (.number t, (Rest.all ts).tail t)
    | .string | .trueWord | .falseWord | .nilWord => (.literal t, (Rest.all ts).tail t)
    | .identifier => (.name t, (Rest.all ts).tail t)
    | .openParen =>
      let (items, stop, rest) := parseItems last ts
      (.group t items stop, rest.tail t)
    | .dash | .not =>
      let (operand, rest) := parseExpr last .prefixed ts
      (.prefixed t operand, rest.tail t)
    | _ => (.invalid (.at last (t :: ts)), .none _)
termination_by 4 * ts.length + 1

/-- What comes after an operand: operators with their right operands, and calls. -/
def parseTail (last : Position) (power : Power) (left : Expr) (ts : List Token) :
    Expr × Rest ts :=
  match ts with
  | [] => (left, .none _)
  | t :: ts =>
    match Operator.ofKind? t.kind with
    | some op =>
      if power < op.power then
        match parseExpr last op.power ts with
        | (right, ⟨rest, h⟩) =>
          let (e, after) := parseTail last power (.binary left t right) rest
          (e, (after.widen h).tail t)
      else (left, .all _)
    | none =>
      if t.kind = .openParen ∧ power < .call then
        match parseArgs last ts with
        | (args, stop, ⟨rest, h⟩) =>
          let (e, after) := parseTail last power (.call left t args stop) rest
          (e, (after.widen h).tail t)
      else (left, .all _)
termination_by 4 * ts.length

/-- The expressions of a group, at least one, with commas between them, up to the
closing bracket. -/
def parseItems (last : Position) (ts : List Token) : List Expr × Option Stop × Rest ts :=
  match parseExpr last .whole ts with
  | (item, ⟨[], h⟩) => ([item], some (.at last []), ⟨[], h⟩)
  | (item, ⟨t :: rest, h⟩) =>
    if t.kind = .comma then
      let (items, stop, after) := parseItems last rest
      (item :: items, stop, after.widen (Nat.le_of_succ_le h))
    else if t.kind = .closeParen then ([item], .none, ⟨rest, Nat.le_of_succ_le h⟩)
    else ([item], some (.at last (t :: rest)), .none _)
termination_by 4 * ts.length + 3

/-- The arguments of a call up to the closing bracket: none, or expressions with
commas between them and one at the end or none. -/
def parseArgs (last : Position) (ts : List Token) : List Expr × Option Stop × Rest ts :=
  if ts.head?.any (·.kind = .closeParen) then ([], .none, ⟨ts.tail, by simp⟩)
  else
    match parseExpr last .whole ts with
    | (arg, ⟨[], h⟩) => ([arg], some (.at last []), ⟨[], h⟩)
    | (arg, ⟨t :: rest, h⟩) =>
      if t.kind = .comma then
        let (args, stop, after) := parseArgs last rest
        (arg :: args, stop, after.widen (Nat.le_of_succ_le h))
      else if t.kind = .closeParen then ([arg], .none, ⟨rest, Nat.le_of_succ_le h⟩)
      else ([arg], some (.at last (t :: rest)), .none _)
termination_by 4 * ts.length + 3

end

/-- The expression that a span of tokens makes. The end mark that may close the
span is none of its tokens; a span without tokens makes no expression. -/
def parse? (ts : List Token) : Option Expr :=
  match Token.withoutEof ts with
  | [] => none
  | t :: ts =>
    let last := ((t :: ts).getLastD t).position
    match parseExpr last .whole (t :: ts) with
    | (e, ⟨[], _⟩) => some e
    | (e, ⟨rest, _⟩) => some (.trailing e (.at last rest))

end ExprCheck.Expr
