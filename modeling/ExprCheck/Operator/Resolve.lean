/-
ExprCheck.Operator.Resolve — the type and value of a binary operation.

What an operator may do is decided by the sort of its operands: the first sort of
a fixed list that either operand belongs to. An enum is judged by the type its
items are stored in, so enums are opened first. An operation reports at most one
problem, at its operator; where no type can be given at all it fails.
-/
import ExprCheck.Operator.Fold
import ExprCheck.Settings
import ExprCheck.Ty.Compatible
import ExprCheck.Value

namespace ExprCheck

/-! ## 1. Sorts of operands -/

/-- What an operand is to an operator. -/
inductive OperandSort where
  | func
  | array
  | slice
  | pointer
  | enum
  | struct
  | trait
  | map
  | nil
  | any
  | bool
  | str
  | float
  | unsigned
  | signed
  deriving DecidableEq, Repr

namespace OperandSort

/-- The sorts in the order in which they are tried. -/
def all : List OperandSort :=
  [.func, .array, .slice, .pointer, .enum, .struct, .trait, .map, .nil, .any, .bool, .str,
    .float, .unsigned, .signed]

/-- The type is of the sort. -/
def admits : OperandSort → Ty → Bool
  | .func => Ty.isFunc
  | .array => Ty.isArray
  | .slice => Ty.isSlice
  | .pointer => Ty.isPointer
  | .enum => Ty.isEnum
  | .struct => Ty.isStruct
  | .trait => Ty.isTrait
  | .map => Ty.isMap
  | .nil => Ty.isNil
  | .any => Ty.isAny
  | .bool => Ty.isBool
  | .str => Ty.isStr
  | .float => Ty.isFloat
  | .unsigned => Ty.isUnsigned
  | .signed => Ty.isSigned

/-- The name of the sort in messages. -/
def name : OperandSort → String
  | .func => "func"
  | .array => "array"
  | .slice => "slice"
  | .pointer => "pointer"
  | .enum => "enum"
  | .struct => "struct"
  | .trait => "trait"
  | .map => "map"
  | .nil => "nil"
  | .any => "any"
  | .bool => "bool"
  | .str => "str"
  | .float => "float"
  | .unsigned => "uint"
  | .signed => "int"

/-- The sort that decides about two operands. -/
def of? (left right : Ty) : Option OperandSort := all.find? fun s => s.admits left || s.admits right

end OperandSort

/-! ## 2. Enums -/

namespace Ty

/-- The type that the items of an enum are stored in. -/
def storage? (t : Ty) : Option Ty :=
  match t.payload with
  | .enum decl => if t.isEnum then some decl.storage else none
  | _ => none

mutual

/-- How many enums are stored in one another. -/
def storageDepth : Ty → Nat
  | ⟨_, _, _, _, payload, _, _, _⟩ => payloadDepth payload
termination_by structural t => t

def payloadDepth : Payload Ty → Nat
  | .enum decl => enumDepth decl
  | .none | .map .. | .struct .. | .trait _ | .func _ | .tuple _ => 0
termination_by structural p => p

def enumDepth : EnumDef Ty → Nat
  | ⟨_, _, storage, _⟩ => storage.storageDepth + 1
termination_by structural d => d

end

theorem storageDepth_lt {t s : Ty} (h : t.storage? = some s) :
    s.storageDepth < t.storageDepth := by
  obtain ⟨_, _, _, _, payload, _, _, _⟩ := t
  unfold storage? at h
  split at h
  · rename_i decl hp
    split at h
    · cases h
      dsimp only at hp
      subst hp
      obtain ⟨_, _, storage, _⟩ := decl
      exact Nat.lt_succ_self storage.storageDepth
    · simp at h
  · simp at h

end Ty

/-- The value under another type. -/
def Value.retyped (v : Value) (type : Ty) : Value := { v with type := type }

/-! ## 3. Operations on one sort -/

/-- An operation between two operands, at the token of its operator. -/
structure Operation where
  left : Value
  op : Operator
  token : Token
  right : Value

/-- What an operation yields, constants allowed. -/
structure Outcome where
  type : Ty
  const : Option Constant
  /-- A number gets the narrowest type that has it. -/
  narrows : Bool

namespace Outcome

def typed (type : Ty) (const : Option Constant) : Outcome := ⟨type, const, true⟩

/-- A number keeps its type, whatever it is. -/
def fixed (type : Ty) (const : Option Constant) : Outcome := ⟨type, const, false⟩

def bool (b : Option Bool) : Outcome := typed Ty.bool (b.map .bool)

/-- The type that the outcome gets in the end, when its constant is `const`. -/
def finalType (o : Outcome) (const : Option Constant) : Ty :=
  match const.bind Constant.narrowestKind? with
  | some kind => if o.narrows && o.type.isNumeric then Ty.number kind else o.type
  | none => o.type

end Outcome

namespace Operation

/-- Reports a problem at the operator. -/
def report (o : Operation) (problem : Problem) : Check Unit :=
  Check.report problem o.token.position

/-- The operands do not go together. -/
def incompatible (o : Operation) : Check (Option Outcome) := do
  o.report (.incompatibleOperands o.left.type.spelling o.right.type.spelling)
  return none

/-- The operands do not take the operator. -/
def notFor (o : Operation) (sort : OperandSort) : Check (Option Outcome) := do
  o.report (.operatorNotFor o.token.value sort.name)
  return none

/-- Both constants, of operands that are both known. -/
def known? (o : Operation) : Option (Constant × Constant) :=
  match o.left.known?, o.right.known? with
  | some a, some b => some (a, b)
  | _, _ => none

/-- What a comparison yields, of operands that are both known. -/
def compared? (o : Operation) (op : Comparison) : Option Bool :=
  o.known?.bind fun (a, b) => a.compareBy? op b

/-- Either operand may meet the other. -/
def compatible (o : Operation) (ignoreAny : Bool) : Bool :=
  Ty.compatible ignoreAny o.left.type o.right.type

/-- Connected truth values. Other operands are reported, but the result is a truth
value all the same. -/
def logical (o : Operation) (op : Logical) : Check Outcome := do
  if !o.left.type.isBool || !o.right.type.isBool then
    o.report .logicalNotBool
    return .bool none
  match o.known? with
  | some (.bool a, .bool b) => return .bool (some (op.apply a b))
  | _ => return .bool none

/-- Operands that can only be told apart. -/
def equality (o : Operation) (sort : OperandSort) : Check (Option Outcome) :=
  if o.op.isEquality then return some (.bool none) else o.notFor sort

/-- Functions can be told from `nil`. -/
def onFunc (o : Operation) : Check (Option Outcome) :=
  if o.left.type.isNil || o.right.type.isNil then o.equality .func else o.incompatible

/-- Operands that can be told from what is compatible with them. -/
def onEqual (o : Operation) (sort : OperandSort) (ignoreAny : Bool) : Check (Option Outcome) :=
  if o.compatible ignoreAny then o.equality sort else o.incompatible

/-- Pointers can be compared, and moved by what is compatible with them. -/
def onPointer (o : Operation) : Check (Option Outcome) :=
  if o.compatible true then
    match o.op with
    | .arithmetic .add | .arithmetic .sub =>
      let pointer := if o.left.type.isPointer then o.left else o.right
      return some (.typed pointer.type none)
    | .compare _ => return some (.bool none)
    | _ => o.notFor .pointer
  else o.incompatible

/-- Truth values can be told apart. -/
def onBool (o : Operation) : Check (Option Outcome) :=
  if o.compatible true then
    match o.op with
    | .compare .eq => return some (.bool (o.compared? .eq))
    | .compare .ne => return some (.bool (o.compared? .ne))
    | _ => o.notFor .bool
  else o.incompatible

/-- Texts can be joined and told apart. -/
def onStr (o : Operation) : Check (Option Outcome) :=
  if o.left.type.isStr && o.right.type.isStr then
    match o.op with
    | .arithmetic .add =>
      match o.known? with
      | some (.str a, .str b) => return some (.typed Ty.str (some (.str (a ++ b))))
      | _ => return some (.typed Ty.str none)
    | .compare .eq => return some (.bool (o.compared? .eq))
    | .compare .ne => return some (.bool (o.compared? .ne))
    | _ => o.notFor .str
  else o.incompatible

/-! ## 4. Numbers -/

/-- A quotient or remainder. A divisor known to be zero is reported, and the result
is zero. -/
def divided (o : Operation) (kind : NumberKind) (type : Ty)
    (fold : Constant → Constant → Except Fault Constant) : Check Outcome := do
  if o.right.known?.any Constant.isZero then
    o.report .divideByZero
    return .fixed type (o.known?.map fun _ => .zero kind)
  match o.known? with
  | some (a, b) => return .typed type (some ((← fold a b).cast kind))
  | none => return .typed type none

/-- The value may be the amount of a shift: an integer, and not known to be negative. -/
def shiftsBy (v : Value) : Bool :=
  v.type.isInteger &&
    match v.const with
    | none => true
    | some (.signed n) => 0 ≤ n
    | some (.unsigned _) => true
    | some _ => false

/-- A shift. Its type is chosen by the amount, where that is known. -/
def shifted (o : Operation) (op : Shift) : Check Outcome := do
  if shiftsBy o.right then
    match o.right.const with
    | none => return .fixed (Ty.number .u64) none
    | some amount =>
      let amount := amount.toUInt64
      let kind := NumberKind.ofShift amount
      return .fixed (Ty.number kind) (o.left.known?.map fun a => (a.shift op amount).cast kind)
  else
    o.report .shiftNotUnsigned
    return .fixed (Ty.number .u64) none

/-- The operand of the wider kind, the left one if they are of one kind. -/
def wider (o : Operation) (left right : NumberKind) : NumberKind × Ty :=
  if left.rank < right.rank then (right, o.right.type) else (left, o.left.type)

/-- Two numbers. Only integers have remainders, bits and shifts; the other results
take the type of the wider operand. -/
def onNumbers (o : Operation) (sort : OperandSort) : Check (Option Outcome) := do
  let some left := o.left.type.numberKind? | o.incompatible
  let some right := o.right.type.numberKind? | o.incompatible
  let (kind, type) := o.wider left right
  let integers := sort != .float
  match o.op with
  | .compare op => return some (.bool (o.compared? op))
  | .arithmetic op =>
    let exact := o.known?.map fun (a, b) => Constant.arithmetic op a b
    if kind.isUnsigned && exact.any Binary64.isNegative then
      o.report .overflow
    return some (.typed type (exact.map fun x => (Constant.float x).cast kind))
  | .divide => return some (← o.divided kind type fun a b => return .float (a.quotient b))
  | .remainder =>
    if integers then return some (← o.divided kind type Constant.remainder) else o.notFor sort
  | .bitwise op =>
    if integers then
      return some (.typed type (o.known?.map fun (a, b) => (a.bitwise op b).cast kind))
    else o.notFor sort
  | .shift op => if integers then return some (← o.shifted op) else o.notFor sort
  | .logical _ => o.notFor sort

/-! ## 5. All sorts -/

/-- What the operation yields between operands that a sort decides about. -/
def onSort (o : Operation) : OperandSort → Check (Option Outcome)
  | .func => o.onFunc
  | .array => o.onEqual .array true
  | .slice => o.onEqual .slice true
  | .struct => o.onEqual .struct true
  | .trait => o.onEqual .trait true
  | .map => o.onEqual .map true
  | .pointer => o.onPointer
  | .enum => o.incompatible
  | .nil => o.onEqual .nil false
  | .any => o.equality .any
  | .bool => o.onBool
  | .str => o.onStr
  | .float => o.onNumbers .float
  | .unsigned => o.onNumbers .unsigned
  | .signed => o.onNumbers .signed

/-- What the operation yields. Enums are opened, both at a time, until something
else decides. -/
def outcome (o : Operation) : Check (Option Outcome) :=
  match OperandSort.of? o.left.type o.right.type with
  | none => o.incompatible
  | some .enum =>
    match _hl : o.left.type.storage?, _hr : o.right.type.storage? with
    | none, none => o.onSort .enum
    | some left, none => outcome { o with left := o.left.retyped left }
    | none, some right => outcome { o with right := o.right.retyped right }
    | some left, some right =>
      outcome { o with left := o.left.retyped left, right := o.right.retyped right }
  | some sort => o.onSort sort
termination_by o.left.type.storageDepth + o.right.type.storageDepth
decreasing_by
  · have := Ty.storageDepth_lt _hl
    simp only [Value.retyped]
    omega
  · have := Ty.storageDepth_lt _hr
    simp only [Value.retyped]
    omega
  · have := Ty.storageDepth_lt _hl
    have := Ty.storageDepth_lt _hr
    simp only [Value.retyped]
    omega

/-- The value of an operation that yields an outcome. Where constants are not
allowed it is not known. -/
def finish (o : Operation) (settings : Settings) (outcome : Outcome) : Value :=
  let const := if settings.foldConstants then outcome.const else none
  let text :=
    match const with
    | some c => c.shown
    | none => o.left.text ++ " " ++ o.token.value ++ " " ++ o.right.text
  { Value.typed (outcome.finalType const) text with const := const }

end Operation

/-! ## 6. Binary operations -/

/-- The value of a binary operation. -/
def resolve (settings : Settings) (left : Value) (token : Token) (right : Value) : Check Value := do
  match Operator.ofKind? token.kind with
  | none =>
    Check.report (.invalidOperator token.value) token.position
    return .failed
  | some op =>
    let o : Operation := ⟨left, op, token, right⟩
    match op with
    | .logical op => return o.finish settings (← o.logical op)
    | _ =>
      match ← o.outcome with
      | some outcome => return o.finish settings outcome
      | none => return .failed

end ExprCheck
