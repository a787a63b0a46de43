/-
ExprCheck.Token.Split — a span of tokens cut at a separator.

A separator inside brackets does not cut. Depth counts brackets of all three
shapes alike; a closing bracket without an opening one takes it below zero,
where separators still cut.
-/
import ExprCheck.Token.Basic

namespace ExprCheck.Token

/-- The parts of a span, and the separators in front of which a part is empty
although it must not be. -/
structure Parts where
  parts : List (List Token)
  missing : List Position

namespace Parts

/-- One more part before the others. `stop` is the separator that ends it. -/
def add (mustHold : Bool) (part : List Token) (stop : Token) (rest : Parts) : Parts where
  parts := part :: rest.parts
  missing := if mustHold && part.isEmpty then stop.position :: rest.missing else rest.missing

end Parts

/-- Cuts `ts` at the separators outside brackets. `part` is what has been read
since the last of them and `depth` the brackets open there. -/
def splitFrom (separator : Kind) (mustHold : Bool) :
    (depth : Int) → (part : List Token) → (ts : List Token) → Parts
  | _, part, [] => ⟨if part.isEmpty && mustHold then [] else [part], []⟩
  | depth, part, t :: ts =>
    if t.kind.isOpening then
      splitFrom separator mustHold (depth + 1) (part ++ [t]) ts
    else
      let depth := if t.kind.isClosing then depth - 1 else depth
      if depth ≤ 0 ∧ t.kind = separator then
        (splitFrom separator mustHold depth [] ts).add mustHold part t
      else
        splitFrom separator mustHold depth (part ++ [t]) ts

/-- The parts of a span between separators. When `mustHold` is set every part
has to hold something: an empty one in front of a separator is missing, and a
separator at the very end starts no part. -/
def split (ts : List Token) (separator : Kind) (mustHold : Bool) : Parts :=
  match withoutEof ts with
  | [] => ⟨[], []⟩
  | ts => splitFrom separator mustHold 0 [] ts

theorem split_eq_splitFrom {ts : List Token} (h : withoutEof ts ≠ []) (separator : Kind)
    (mustHold : Bool) :
    split ts separator mustHold = splitFrom separator mustHold 0 [] (withoutEof ts) := by
  unfold split
  split
  · rename_i hnil
    exact absurd hnil h
  · rfl

end ExprCheck.Token
