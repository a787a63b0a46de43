/-
ExprCheck.Text.Blank — blank characters, and texts cut at them.

Blank is the property White_Space of Unicode: 25 characters in 10 ranges.
-/
import ExprCheck.Text.Ranges

namespace ExprCheck.Text

/-- Ranges of blank characters. -/
def blankRanges : List (Nat × Nat) := [
  (0x9, 0xd), (0x20, 0x20), (0x85, 0x85), (0xa0, 0xa0), (0x1680, 0x1680), (0x2000, 0x200a),
  (0x2028, 0x2029), (0x202f, 0x202f), (0x205f, 0x205f), (0x3000, 0x3000)]

/-- The character separates words and is drawn as nothing. -/
def isBlank (c : Char) : Bool := inRanges c.toNat blankRanges

/-- The text without the blanks at its two ends. -/
def trim (cs : List Char) : List Char :=
  ((cs.dropWhile isBlank).reverse.dropWhile isBlank).reverse

theorem length_trim_le (cs : List Char) : (trim cs).length ≤ cs.length := by
  have h₁ := (List.dropWhile_suffix (l := cs) isBlank).length_le
  have h₂ := (List.dropWhile_suffix (l := (cs.dropWhile isBlank).reverse) isBlank).length_le
  simp only [trim, List.length_reverse] at *
  omega

example : (blankRanges.map fun r => r.2 - r.1 + 1).sum = 25 := by decide

end ExprCheck.Text
