/-
ExprCheck.Text.Quoted — a text between double quotes, readable by eye.

A character that would end the text, or that the eye cannot tell apart,
is written with a backslash: the six short forms of `shortEscape`, and for
every other character without a glyph, or drawn onto its neighbour, its code
point in hexadecimal between braces.
-/
import ExprCheck.Text.Combining
import ExprCheck.Text.Invisible

namespace ExprCheck.Text

/-- The letter that stands for the character after a backslash. -/
def shortEscape : Char → Option Char
  | '\x00' => some '0'
  | '\t' => some 't'
  | '\r' => some 'r'
  | '\n' => some 'n'
  | '"' => some '"'
  | '\\' => some '\\'
  | _ => none

/-- Whether the character is written as its code point. The printable
characters of ASCII are decided without a table. -/
def needsCodePoint (c : Char) : Bool :=
  if 0x20 ≤ c.toNat ∧ c.toNat < 0x7f then false else isInvisible c || isCombining c

/-- How one character is written between quotes. -/
def escapeChar (c : Char) : List Char :=
  match shortEscape c with
  | some e => ['\\', e]
  | none =>
    if needsCodePoint c then
      ['\\', 'u', '\x7b'] ++ Nat.toDigits 16 c.toNat ++ ['\x7d']
    else [c]

/-- The characters of a text as written between quotes. -/
def escape (cs : List Char) : List Char := cs.flatMap escapeChar

/-- The text between double quotes. -/
def quote (s : String) : String := String.ofList ('"' :: escape s.toList ++ ['"'])

end ExprCheck.Text
