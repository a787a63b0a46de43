/-
ExprCheck.Ty.Classify — which sort of type an occurrence is.

A type with pointers is a pointer, whatever they lead to. Slices, arrays, maps
and functions are told by their category and by the marks in their name; an
occurrence whose name lacks the marks of its category is none of them.
-/
import ExprCheck.Ty.Basic

namespace ExprCheck.Ty

def isPointer (t : Ty) : Bool := t.pointers != 0

/-- The category, of an occurrence without pointers. -/
def bareCategory? (t : Ty) : Option Category := if t.isPointer then none else some t.category

/-- The name begins with these characters. -/
def nameBegins (t : Ty) (cs : List Char) : Bool := cs.isPrefixOf t.name.toList

/-- The name ends with this character. -/
def nameEnds (t : Ty) (c : Char) : Bool := t.name.toList.getLast? == some c

def isSlice (t : Ty) : Bool := t.bareCategory? == some .slice && t.nameBegins ['[', ']']

def isArray (t : Ty) : Bool :=
  t.bareCategory? == some .array && t.nameBegins ['['] && !t.nameBegins ['[', ']']

def isMap (t : Ty) : Bool :=
  t.bareCategory? == some .map && t.nameBegins ['['] && t.nameEnds ']'

def isFunc (t : Ty) : Bool := t.bareCategory? == some .func && t.nameBegins ['(']

def isStruct (t : Ty) : Bool := t.bareCategory? == some .struct
def isTrait (t : Ty) : Bool := t.bareCategory? == some .trait
def isEnum (t : Ty) : Bool := t.bareCategory? == some .enum
def isTuple (t : Ty) : Bool := t.bareCategory? == some .tuple
def isBool (t : Ty) : Bool := t.bareCategory? == some .bool
def isStr (t : Ty) : Bool := t.bareCategory? == some .str
def isNil (t : Ty) : Bool := t.bareCategory? == some .nil
def isAny (t : Ty) : Bool := t.bareCategory? == some .any
def isVoid (t : Ty) : Bool := t.bareCategory? == some .void

/-- The kind of a numeric type. -/
def numberKind? (t : Ty) : Option NumberKind := t.bareCategory?.bind Category.number?

def isNumeric (t : Ty) : Bool := t.numberKind?.isSome
def isFloat (t : Ty) : Bool := t.numberKind?.any NumberKind.isFloat
def isSigned (t : Ty) : Bool := t.numberKind?.any NumberKind.isSigned
def isUnsigned (t : Ty) : Bool := t.numberKind?.any NumberKind.isUnsigned
def isInteger (t : Ty) : Bool := t.numberKind?.any NumberKind.isInteger

/-- No pointer, container or function is around the value: it is held directly, and
constants of the type are what they seem. -/
def isPure (t : Ty) : Bool :=
  match t.bareCategory? with
  | none | some .slice | some .array | some .map | some .func => false
  | some _ => true

/-- Values of the type may be `nil`. -/
def admitsNil (t : Ty) : Bool :=
  t.isNil || t.isFunc || t.isPointer || t.isSlice || t.isTrait || t.isMap

/-- The components of a tuple, whatever pointers lead to it. -/
def components? (t : Ty) : Option (List Ty) :=
  match t.category, t.payload with
  | .tuple, .tuple components => some components
  | _, _ => none

/-- The signature that the payload holds. -/
def signature? (t : Ty) : Option (Signature Ty) :=
  match t.payload with
  | .func signature => some signature
  | _ => none

end ExprCheck.Ty
