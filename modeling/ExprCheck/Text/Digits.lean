/-
ExprCheck.Text.Digits — whole numbers in digits.
-/

namespace ExprCheck.Text

/-- A decimal digit of ASCII. -/
def isDigit (c : Char) : Bool := '0' ≤ c && c ≤ '9'

/-- A hexadecimal digit of ASCII, in either case. -/
def isHexDigit (c : Char) : Bool :=
  isDigit c || ('a' ≤ c && c ≤ 'f') || ('A' ≤ c && c ≤ 'F')

/-- The value of a hexadecimal digit. -/
def digitValue (c : Char) : Nat :=
  if isDigit c then c.toNat - '0'.toNat
  else if 'a' ≤ c then c.toNat - 'a'.toNat + 10
  else c.toNat - 'A'.toNat + 10

/-- The number that digits write in a base. -/
def ofDigits (base : Nat) (ds : List Char) : Nat :=
  ds.foldl (fun n d => n * base + digitValue d) 0

/-- Reads a natural number below `bound`: digits of one kind, at least one of
them, with a plus sign in front or none. -/
def readNat? (isDigit : Char → Bool) (base bound : Nat) (cs : List Char) : Option Nat :=
  let ds := if cs.head? = some '+' then cs.tail else cs
  if ds.isEmpty || !ds.all isDigit then none
  else
    let n := ofDigits base ds
    if n < bound then some n else none

/-- Reads a decimal natural number below `2 ^ 64`. -/
def readDecimal64? (cs : List Char) : Option Nat := readNat? isDigit 10 (Nat.pow 2 64) cs

/-- Reads a hexadecimal natural number below `2 ^ 64`. -/
def readHex64? (cs : List Char) : Option Nat := readNat? isHexDigit 16 (Nat.pow 2 64) cs

end ExprCheck.Text
