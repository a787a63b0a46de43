/-
ExprCheck.Source — places in a source text.

A place is a byte offset into the UTF-8 form of a text together with the
text's name. Offsets are counted in 32 bits: a text longer than that wraps,
and every statement about places carries the bound it needs.
-/

namespace ExprCheck

/-- A place in a named text, as a byte offset. -/
structure Position where
  offset : UInt32
  file : String
  deriving DecidableEq, Repr

/-- The place of everything that comes from no text. -/
def Position.null : Position := ⟨0, "<null>"⟩

instance : Inhabited Position := ⟨.null⟩

/-- The place `offset` bytes into the text named `file`. -/
def Position.at (file : String) (offset : Nat) : Position := ⟨offset.toUInt32, file⟩

/-- A stretch of text, from `start` up to but not including `stop`. -/
structure Span where
  start : Position
  stop : Position
  deriving DecidableEq, Repr, Inhabited

/-- The stretch of everything that comes from no text. -/
def Span.null : Span := ⟨.null, .null⟩

/-- The name of a text that was given none. -/
def defaultFile : String := "shell"

/-- How many bytes a text takes in UTF-8. -/
def byteLength (cs : List Char) : Nat := cs.foldr (fun c n => c.utf8Size + n) 0

@[simp] theorem byteLength_nil : byteLength [] = 0 := rfl

@[simp] theorem byteLength_cons (c : Char) (cs : List Char) :
    byteLength (c :: cs) = c.utf8Size + byteLength cs := rfl

@[simp] theorem byteLength_append (a b : List Char) :
    byteLength (a ++ b) = byteLength a + byteLength b := by
  induction a with
  | nil => simp
  | cons c a ih => simp only [List.cons_append, byteLength_cons, ih, Nat.add_assoc]

/-- What is left of a text after its first `n` bytes. There is no such text
when `n` is past the end or inside a character. -/
def dropBytes : Nat → List Char → Option (List Char)
  | 0, cs => some cs
  | _ + 1, [] => none
  | n + 1, c :: cs => if c.utf8Size ≤ n + 1 then dropBytes (n + 1 - c.utf8Size) cs else none

theorem dropBytes_byteLength (a b : List Char) :
    dropBytes (byteLength a) (a ++ b) = some b := by
  induction a with
  | nil => simp [dropBytes]
  | cons c a ih =>
    obtain ⟨k, hk⟩ : ∃ k, c.utf8Size + byteLength a = k + 1 :=
      ⟨c.utf8Size + byteLength a - 1, by have := c.utf8Size_pos; omega⟩
    simp only [byteLength_cons, List.cons_append, hk, dropBytes]
    rw [if_pos (by omega), show k + 1 - c.utf8Size = byteLength a by omega, ih]

/-- A read position in a text. It may run past the end. -/
structure Reader where
  text : List Char
  offset : Nat

namespace Reader

/-- Reading starts at the first byte. -/
def ofString (text : String) : Reader := ⟨text.toList, 0⟩

/-- Moves on by `n` bytes, wherever that is. -/
def advance (r : Reader) (n : Nat) : Reader := { r with offset := r.offset + n }

def atEnd (r : Reader) : Bool := byteLength r.text ≤ r.offset

/-- The unread text, unless the position is past the end or inside a character. -/
def remainder (r : Reader) : Option (List Char) := dropBytes r.offset r.text

/-- The next character, which is NUL at the end of the text. -/
def current (r : Reader) : Option Char := r.remainder.map (·.headD '\x00')

end Reader

end ExprCheck
