/-
ExprCheck.Token.Basic — the words of the language.

A token is a kind, a value and the stretch of text it was read from. For most
kinds the value is the spelling; for a string literal it is the text that the
literal stands for. Tokens may also be made by hand, with any value: what the
rest of the library reads off a token is said of such tokens too.
-/
import ExprCheck.Source

namespace ExprCheck

/-- What sort of word a token is. -/
inductive Token.Kind where
  | eof
  | number
  | string
  | identifier
  | openBracket
  | closeBracket
  | openCurly
  | closeCurly
  | openParen
  | closeParen
  | assignment
  | equals
  | not
  | notEquals
  | less
  | lessEquals
  | greater
  | greaterEquals
  | or
  | and
  | dot
  | semicolon
  | colon
  | comma
  | shiftLeft
  | shiftRight
  | amper
  | pipe
  | caret
  | tilde
  | plus
  | dash
  | slash
  | star
  | percent
  | nilWord
  | trueWord
  | falseWord
  | returnWord
  deriving DecidableEq, Repr, Inhabited

namespace Token.Kind

/-- The words that are no identifiers. -/
def ofWord? : String → Option Kind
  | "nil" => some .nilWord
  | "true" => some .trueWord
  | "false" => some .falseWord
  | "return" => some .returnWord
  | _ => none

/-- Opens a group that a separator inside does not split. -/
def isOpening : Kind → Bool
  | .openParen | .openBracket | .openCurly => true
  | _ => false

/-- Closes such a group. -/
def isClosing : Kind → Bool
  | .closeParen | .closeBracket | .closeCurly => true
  | _ => false

end Token.Kind

/-- A word, its value and where it stands. -/
structure Token where
  kind : Token.Kind
  value : String
  span : Span
  deriving DecidableEq, Repr, Inhabited

namespace Token

/-- A token that comes from no text. -/
def synthetic (kind : Kind) (value : String) : Token := ⟨kind, value, .null⟩

/-- Where the token starts. -/
def position (t : Token) : Position := t.span.start

/-- The token written out. A string literal gets quotes around its value, with
nothing in it escaped. -/
def written (t : Token) : String :=
  if t.kind = .string then "\"" ++ t.value ++ "\"" else t.value

/-- The tokens written out one after the other, up to the first end mark. -/
def textOf (ts : List Token) : String :=
  String.join ((ts.takeWhile (·.kind ≠ .eof)).map written)

/-- The tokens without the end mark that closes them, if one does. -/
def withoutEof (ts : List Token) : List Token :=
  match ts.getLast? with
  | some t => if t.kind = .eof then ts.dropLast else ts
  | none => ts

theorem mem_of_mem_withoutEof {ts : List Token} {t : Token} (h : t ∈ withoutEof ts) :
    t ∈ ts := by
  unfold withoutEof at h
  split at h
  · split at h
    · exact (List.dropLast_sublist ts).subset h
    · exact h
  · exact h

theorem withoutEof_eq_self {ts : List Token} (h : ∀ t ∈ ts, t.kind ≠ .eof) :
    withoutEof ts = ts := by
  unfold withoutEof
  split
  · rename_i t ht
    rw [if_neg (h t (List.mem_of_getLast? ht))]
  · rfl

end Token

end ExprCheck
