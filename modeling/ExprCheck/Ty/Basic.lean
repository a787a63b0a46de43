/-
ExprCheck.Ty.Basic — the types of the language.

A type occurrence is a record: its category, its name without pointer marks,
how many pointers lead to it, and the parts that its category has. Slices and
arrays have an element, arrays a size; what the other composite categories have
is the payload. A type that came out of putting arguments for placeholders keeps
the form it had before as its origin.

Names are part of the record because two types are compared by how they are
spelled. `Ty.rename` is the rule for the name of a composite type, and every
function here that builds one applies it.
-/
import ExprCheck.Number.Kind
import ExprCheck.Token.Basic

namespace ExprCheck

/-! ## 1. The parts of a type -/

/-- What sort of type it is, pointers aside. -/
inductive Category where
  | number (kind : NumberKind)
  | bool
  | str
  | nil
  | any
  | slice
  | array
  | map
  | struct
  | trait
  | enum
  | func
  | tuple
  | generic
  | void
  deriving DecidableEq, Repr, Inhabited

/-- The kind of a numeric category. -/
def Category.number? : Category → Option NumberKind
  | .number kind => some kind
  | _ => none

/-- How many elements an array has. -/
inductive ArraySize where
  | fixed (count : Nat)
  /-- An expression that has not been evaluated yet. -/
  | deferred (tokens : List Token)
  /-- As many as the initialiser has. -/
  | auto
  deriving DecidableEq, Repr

namespace ArraySize

/-- The count, once it is known. -/
def count? : ArraySize → Option Nat
  | .fixed n => some n
  | .deferred _ | .auto => none

/-- The size as it stands between the brackets. -/
def text : ArraySize → String
  | .fixed n => toString n
  | .deferred tokens => Token.textOf tokens
  | .auto => "..."

end ArraySize

/-- A named place for a value: a parameter of a function or a field of a struct.
`τ` stands for types, here and in the other declarations. -/
structure Parameter (τ : Type) where
  name : String
  type : τ

/-- A function: its parameters and what it returns. `results` names the returned
values, if they have names. -/
structure Signature (τ : Type) where
  name : String
  params : List (Parameter τ)
  result : τ
  results : List String

/-- A trait. It is known by its name in its file. -/
structure TraitDef where
  name : String
  file : String
  deriving DecidableEq, Repr

/-- A struct, its placeholders, its fields and the traits it has. It is known by
its name in its file. -/
structure StructDef (τ : Type) where
  name : String
  file : String
  generics : List String
  fields : List (Parameter τ)
  traits : List TraitDef

/-- An enum, the type its items are stored in, and the items. -/
structure EnumDef (τ : Type) where
  name : String
  file : String
  storage : τ
  items : List String

/-- The struct is declared to have the trait. -/
def StructDef.hasTrait (d : StructDef τ) (t : TraitDef) : Bool := d.traits.contains t

/-- Two structs are the same declaration. -/
def StructDef.sameAs (d e : StructDef τ) : Bool := d.name == e.name && d.file == e.file

/-- Whether a result has a name other than `ignore`. -/
def Signature.namesResult (s : Signature τ) (ignore : String) : Bool :=
  s.results.any (· ≠ ignore)

/-- The parts of a composite type other than an element. -/
inductive Payload (τ : Type) where
  | none
  | map (key value : τ)
  | struct (decl : StructDef τ) (args : List τ)
  | trait (decl : TraitDef)
  | enum (decl : EnumDef τ)
  | func (signature : Signature τ)
  | tuple (components : List τ)

/-- One occurrence of a type. -/
structure Ty where
  category : Category
  /-- The spelling without pointer marks. -/
  name : String
  pointers : Nat
  element : Option Ty
  payload : Payload Ty
  size : Option ArraySize
  /-- The form that the type had before arguments were put for its placeholders. -/
  origin : Option Ty
  isPlaceholder : Bool

namespace Ty

/-! ## 2. Equality -/

mutual

/-- Types are compared part by part. -/
def decEq : (a b : Ty) → Decidable (a = b)
  | ⟨category, name, pointers, element, payload, size, origin, isPlaceholder⟩,
    ⟨category', name', pointers', element', payload', size', origin', isPlaceholder'⟩ =>
    haveI := decEqOption element element'
    haveI := decEqPayload payload payload'
    haveI := decEqOption origin origin'
    decidable_of_iff
      (category = category' ∧ name = name' ∧ pointers = pointers' ∧ element = element' ∧
        payload = payload' ∧ size = size' ∧ origin = origin' ∧ isPlaceholder = isPlaceholder')
      (by simp)
termination_by structural a => a

def decEqOption : (a b : Option Ty) → Decidable (a = b)
  | .none, .none => isTrue rfl
  | .some _, .none => isFalse nofun
  | .none, .some _ => isFalse nofun
  | .some a, .some b =>
    haveI := decEq a b
    decidable_of_iff (a = b) (by simp)
termination_by structural a => a

def decEqPayload : (a b : Payload Ty) → Decidable (a = b)
  | .none, b => by cases b <;> first | exact isTrue rfl | exact isFalse nofun
  | .map key value, b =>
    match b with
    | .map key' value' =>
      haveI := decEq key key'
      haveI := decEq value value'
      decidable_of_iff (key = key' ∧ value = value') (by simp)
    | .none | .struct .. | .trait _ | .enum _ | .func _ | .tuple _ => isFalse nofun
  | .struct decl args, b =>
    match b with
    | .struct decl' args' =>
      haveI := decEqStruct decl decl'
      haveI := decEqList args args'
      decidable_of_iff (decl = decl' ∧ args = args') (by simp)
    | .none | .map .. | .trait _ | .enum _ | .func _ | .tuple _ => isFalse nofun
  | .trait decl, b =>
    match b with
    | .trait decl' => decidable_of_iff (decl = decl') (by simp)
    | .none | .map .. | .struct .. | .enum _ | .func _ | .tuple _ => isFalse nofun
  | .enum decl, b =>
    match b with
    | .enum decl' =>
      haveI := decEqEnum decl decl'
      decidable_of_iff (decl = decl') (by simp)
    | .none | .map .. | .struct .. | .trait _ | .func _ | .tuple _ => isFalse nofun
  | .func signature, b =>
    match b with
    | .func signature' =>
      haveI := decEqSignature signature signature'
      decidable_of_iff (signature = signature') (by simp)
    | .none | .map .. | .struct .. | .trait _ | .enum _ | .tuple _ => isFalse nofun
  | .tuple components, b =>
    match b with
    | .tuple components' =>
      haveI := decEqList components components'
      decidable_of_iff (components = components') (by simp)
    | .none | .map .. | .struct .. | .trait _ | .enum _ | .func _ => isFalse nofun
termination_by structural a => a

def decEqStruct : (a b : StructDef Ty) → Decidable (a = b)
  | ⟨name, file, generics, fields, traits⟩, ⟨name', file', generics', fields', traits'⟩ =>
    haveI := decEqParams fields fields'
    decidable_of_iff
      (name = name' ∧ file = file' ∧ generics = generics' ∧ fields = fields' ∧ traits = traits')
      (by simp)
termination_by structural a => a

def decEqEnum : (a b : EnumDef Ty) → Decidable (a = b)
  | ⟨name, file, storage, items⟩, ⟨name', file', storage', items'⟩ =>
    haveI := decEq storage storage'
    decidable_of_iff (name = name' ∧ file = file' ∧ storage = storage' ∧ items = items') (by simp)
termination_by structural a => a

def decEqSignature : (a b : Signature Ty) → Decidable (a = b)
  | ⟨name, params, result, results⟩, ⟨name', params', result', results'⟩ =>
    haveI := decEqParams params params'
    haveI := decEq result result'
    decidable_of_iff
      (name = name' ∧ params = params' ∧ result = result' ∧ results = results') (by simp)
termination_by structural a => a

def decEqParam : (a b : Parameter Ty) → Decidable (a = b)
  | ⟨name, type⟩, ⟨name', type'⟩ =>
    haveI := decEq type type'
    decidable_of_iff (name = name' ∧ type = type') (by simp)
termination_by structural a => a

def decEqParams : (a b : List (Parameter Ty)) → Decidable (a = b)
  | [], [] => isTrue rfl
  | _ :: _, [] => isFalse nofun
  | [], _ :: _ => isFalse nofun
  | a :: as, b :: bs =>
    haveI := decEqParam a b
    haveI := decEqParams as bs
    decidable_of_iff (a = b ∧ as = bs) (by simp)
termination_by structural a => a

def decEqList : (a b : List Ty) → Decidable (a = b)
  | [], [] => isTrue rfl
  | _ :: _, [] => isFalse nofun
  | [], _ :: _ => isFalse nofun
  | a :: as, b :: bs =>
    haveI := decEq a b
    haveI := decEqList as bs
    decidable_of_iff (a = b ∧ as = bs) (by simp)
termination_by structural a => a

end

instance : DecidableEq Ty := decEq

end Ty

end ExprCheck
