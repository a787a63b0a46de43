/-
ExprCheck.Number.Kind — the numeric types of the language.

Ten kinds in three families: signed and unsigned integers of 8 to 64 bits, and
floats of 32 and 64. Their order of widening puts the integers by width, the
signed one before the unsigned one, and the floats last.
-/

namespace ExprCheck

/-- A numeric type of fixed width. -/
inductive NumberKind where
  | i8
  | i16
  | i32
  | i64
  | u8
  | u16
  | u32
  | u64
  | f32
  | f64
  deriving DecidableEq, Repr, Inhabited

namespace NumberKind

/-- Every kind, in the order of widening. -/
def all : List NumberKind := [.i8, .u8, .i16, .u16, .i32, .u32, .i64, .u64, .f32, .f64]

def name : NumberKind → String
  | .i8 => "i8"
  | .i16 => "i16"
  | .i32 => "i32"
  | .i64 => "i64"
  | .u8 => "u8"
  | .u16 => "u16"
  | .u32 => "u32"
  | .u64 => "u64"
  | .f32 => "f32"
  | .f64 => "f64"

/-- The kind of a name. Four kinds have a second name. -/
def ofName? : String → Option NumberKind
  | "byte" => some .u8
  | "rune" => some .i32
  | "int" => some .i64
  | "uint" => some .u64
  | name => all.find? (·.name = name)

theorem ofName?_name (k : NumberKind) : ofName? k.name = some k := by
  cases k <;> rfl

def bits : NumberKind → Nat
  | .i8 | .u8 => 8
  | .i16 | .u16 => 16
  | .i32 | .u32 | .f32 => 32
  | .i64 | .u64 | .f64 => 64

def isSigned : NumberKind → Bool
  | .i8 | .i16 | .i32 | .i64 => true
  | _ => false

def isUnsigned : NumberKind → Bool
  | .u8 | .u16 | .u32 | .u64 => true
  | _ => false

def isFloat : NumberKind → Bool
  | .f32 | .f64 => true
  | _ => false

def isInteger (k : NumberKind) : Bool := !k.isFloat

/-- The place in the order of widening. -/
def rank : NumberKind → Nat
  | .i8 => 0
  | .u8 => 1
  | .i16 => 2
  | .u16 => 3
  | .i32 => 4
  | .u32 => 5
  | .i64 => 6
  | .u64 => 7
  | .f32 => 8
  | .f64 => 9

theorem rank_eq_idxOf (k : NumberKind) : all.idxOf k = k.rank := by
  cases k <;> rfl

/-- The least value of an integer kind, and zero for a float. -/
def least (k : NumberKind) : Int := if k.isSigned then -Nat.pow 2 (k.bits - 1) else 0

/-- The greatest value of an integer kind, and zero for a float. -/
def greatest (k : NumberKind) : Int :=
  if k.isSigned then Nat.pow 2 (k.bits - 1) - 1
  else if k.isUnsigned then Nat.pow 2 k.bits - 1
  else 0

/-- The least value as a signed word. -/
def leastWord (k : NumberKind) : Int64 := .ofInt k.least

/-- The greatest value as an unsigned word. -/
def greatestWord (k : NumberKind) : UInt64 := .ofNat k.greatest.toNat

/-- The whole number is a value of the integer kind. -/
def Holds (k : NumberKind) (n : Int) : Prop := k.least ≤ n ∧ n ≤ k.greatest

instance (k : NumberKind) (n : Int) : Decidable (k.Holds n) :=
  inferInstanceAs (Decidable (_ ∧ _))

/-- The narrowest signed kind of at least so many bits, or the widest. -/
def signedOfBits (bits : Nat) : NumberKind :=
  if bits ≤ 8 then .i8 else if bits ≤ 16 then .i16 else if bits ≤ 32 then .i32 else .i64

/-- The narrowest unsigned kind of at least so many bits, or the widest. -/
def unsignedOfBits (bits : Nat) : NumberKind :=
  if bits ≤ 8 then .u8 else if bits ≤ 16 then .u16 else if bits ≤ 32 then .u32 else .u64

/-- The narrowest float of at least so many bits, or the widest. -/
def floatOfBits (bits : Nat) : NumberKind := if bits ≤ 32 then .f32 else .f64

end NumberKind

end ExprCheck
