/-
ExprCheck.Ty.Spelling — types written out, built up and read back.

A composite type is named after its parts: `[]T`, `[4]T`, `[K:V]`, `(A,B)`, and
for a function its parameters in brackets before its result. Pointers are stars
in front. Reading goes by the outermost brackets: `shape?` finds how a spelling
is put together, and every part it finds is shorter than the whole.
-/
import ExprCheck.Text.Blank
import ExprCheck.Text.Digits
import ExprCheck.Ty.Basic

namespace ExprCheck.Ty

/-! ## 1. Writing -/

/-- The type as it is written, pointer marks included. -/
def spelling (t : Ty) : String := String.ofList (List.replicate t.pointers '*') ++ t.name

/-- Several types in a row, with commas between. -/
def spellings (ts : List Ty) : String := ",".intercalate (ts.map spelling)

/-- The spelling of the element, which is empty where there is none. -/
def elementSpelling (t : Ty) : String := (t.element.map spelling).getD ""

/-- The name that the parts of a type give it, if its name comes from them. -/
def derivedName? (t : Ty) : Option String :=
  match t.category, t.payload with
  | .slice, _ => some ("[]" ++ t.elementSpelling)
  | .array, _ => some ("[" ++ (t.size.map ArraySize.text).getD "" ++ "]" ++ t.elementSpelling)
  | .map, .map key value => some ("[" ++ key.spelling ++ ":" ++ value.spelling ++ "]")
  | .tuple, .tuple components => some ("(" ++ spellings components ++ ")")
  | .struct, .struct decl args =>
    some (if args.isEmpty then decl.name else decl.name ++ "[" ++ spellings args ++ "]")
  | .func, .func signature =>
    let params := "(" ++ spellings (signature.params.map (·.type)) ++ ")"
    let result := signature.result
    some (if result.category = .void then params else params ++ result.spelling)
  | _, _ => none

/-- The type under the name that its parts give it. -/
def rename (t : Ty) : Ty := { t with name := t.derivedName?.getD t.name }

/-! ## 2. Building -/

/-- A type with no parts. -/
def simple (category : Category) (name : String) : Ty where
  category := category
  name := name
  pointers := 0
  element := none
  payload := .none
  size := none
  origin := none
  isPlaceholder := false

def number (kind : NumberKind) : Ty := simple (.number kind) kind.name
def bool : Ty := simple .bool "bool"
def str : Ty := simple .str "str"
def nil : Ty := simple .nil "nil"
def any : Ty := simple .any "any"
def void : Ty := simple .void "void"

instance : Inhabited Ty := ⟨void⟩

/-- A placeholder for a type. -/
def generic (name : String) : Ty := { simple .generic name with isPlaceholder := true }

def sliceOf (element : Ty) : Ty := rename { simple .slice "" with element := some element }

def arrayOf (element : Ty) (size : ArraySize) : Ty :=
  rename { simple .array "" with element := some element, size := some size }

def mapOf (key value : Ty) : Ty := rename { simple .map "" with payload := .map key value }

def tupleOf (components : List Ty) : Ty :=
  rename { simple .tuple "" with payload := .tuple components }

/-- A struct with arguments for its placeholders. -/
def structOf (decl : StructDef Ty) (args : List Ty) : Ty :=
  rename { simple .struct "" with payload := .struct decl args }

def traitOf (decl : TraitDef) : Ty := { simple .trait decl.name with payload := .trait decl }

def enumOf (decl : EnumDef Ty) : Ty := { simple .enum decl.name with payload := .enum decl }

def funcOf (signature : Signature Ty) : Ty :=
  rename { simple .func "" with payload := .func signature }

/-- Pointers to the type, `count` of them in a row. -/
def addPointers (t : Ty) (count : Nat) : Ty := { t with pointers := t.pointers + count }

def pointerTo (t : Ty) : Ty := t.addPointers 1

/-! ## 3. Brackets -/

/-- A character put before the first part of a text in two parts. -/
def consFirst (c : Char) : List Char × List Char → List Char × List Char
  | (a, b) => (c :: a, b)

/-- The text up to the bracket that closes one opened before it, and the text
after that bracket. -/
def splitClose (opening closing : Char) : Nat → List Char → Option (List Char × List Char)
  | _, [] => none
  | depth, c :: cs =>
    if c = opening then (splitClose opening closing (depth + 1) cs).map (consFirst c)
    else if c = closing then
      match depth with
      | 0 => some ([], cs)
      | depth + 1 => (splitClose opening closing depth cs).map (consFirst c)
    else (splitClose opening closing depth cs).map (consFirst c)

/-- How a character changes the depth of brackets, square or round. -/
def depthAfter (depth : Int) (c : Char) : Int :=
  if c = '[' ∨ c = '(' then depth + 1
  else if c = ']' ∨ c = ')' then depth - 1
  else depth

/-- The character is the separator and stands outside brackets. -/
def cutsAt (separator : Char) (depth : Int) (c : Char) : Prop :=
  c = separator ∧ depth = 0 ∧ depthAfter depth c = depth

instance (separator : Char) (depth : Int) (c : Char) : Decidable (cutsAt separator depth c) :=
  inferInstanceAs (Decidable (_ ∧ _ ∧ _))

/-- The text around the first separator outside brackets. -/
def splitFirst (separator : Char) : Int → List Char → Option (List Char × List Char)
  | _, [] => none
  | depth, c :: cs =>
    if cutsAt separator depth c then some ([], cs)
    else (splitFirst separator (depthAfter depth c) cs).map (consFirst c)

/-- A character put before the first of several texts. -/
def consHead (c : Char) : List (List Char) → List (List Char)
  | [] => [[c]]
  | part :: parts => (c :: part) :: parts

/-- The texts between the separators outside brackets. There is one more of them
than there are such separators. -/
def splitAll (separator : Char) : Int → List Char → List (List Char)
  | _, [] => [[]]
  | depth, c :: cs =>
    if cutsAt separator depth c then [] :: splitAll separator depth cs
    else consHead c (splitAll separator (depthAfter depth c) cs)

theorem splitClose_length {o c : Char} {depth : Nat} {cs a b : List Char}
    (h : splitClose o c depth cs = some (a, b)) : a.length + b.length < cs.length := by
  fun_induction splitClose o c depth cs generalizing a with
  | case1 => simp at h
  | case3 =>
    obtain ⟨rfl, rfl⟩ := by simpa using h
    simp
  | _ =>
    rename_i ih
    obtain ⟨⟨a', b'⟩, hab, he⟩ := Option.map_eq_some_iff.1 h
    obtain ⟨rfl, rfl⟩ := Prod.mk.inj he
    have := ih hab
    simp only [List.length_cons]
    omega

theorem splitFirst_length {s : Char} {depth : Int} {cs a b : List Char}
    (h : splitFirst s depth cs = some (a, b)) : a.length + b.length < cs.length := by
  fun_induction splitFirst s depth cs generalizing a with
  | case1 => simp at h
  | case2 =>
    obtain ⟨rfl, rfl⟩ := by simpa using h
    simp
  | case3 _ _ _ _ ih =>
    obtain ⟨⟨a', b'⟩, hab, he⟩ := Option.map_eq_some_iff.1 h
    obtain ⟨rfl, rfl⟩ := Prod.mk.inj he
    have := ih hab
    simp only [List.length_cons]
    omega

theorem splitAll_length {s : Char} {depth : Int} {cs part : List Char}
    (h : part ∈ splitAll s depth cs) : part.length ≤ cs.length := by
  fun_induction splitAll s depth cs generalizing part with
  | case1 => simp_all
  | case2 _ _ _ _ ih =>
    rcases List.mem_cons.1 h with rfl | h
    · simp
    · exact Nat.le_succ_of_le (ih h)
  | case3 depth c cs _ ih =>
    cases hs : splitAll s (depthAfter depth c) cs with
    | nil => simp_all [consHead]
    | cons p ps =>
      rw [hs] at h ih
      simp only [consHead] at h
      rcases List.mem_cons.1 h with rfl | h
      · exact Nat.succ_le_succ (ih (List.mem_cons_self ..))
      · exact Nat.le_succ_of_le (ih (List.mem_cons_of_mem _ h))

/-! ## 4. Reading -/

/-- The type of a name that stands for one by itself. -/
def ofName? : String → Option Ty
  | "bool" => some bool
  | "str" => some str
  | "any" => some any
  | "nil" => some nil
  | "void" => some void
  | name => (NumberKind.ofName? name).map number

/-- How a spelling without pointer marks is put together. -/
inductive Shape where
  | named (t : Ty)
  | slice (element : List Char)
  | array (size : ArraySize) (element : List Char)
  | map (key value : List Char)
  | tuple (components : List (List Char))

/-- The spellings that a shape leaves to be read. -/
def Shape.parts : Shape → List (List Char)
  | .named _ => []
  | .slice element | .array _ element => [element]
  | .map key value => [key, value]
  | .tuple components => components

/-- What stands between the brackets of an array: dots, or a count. -/
def arraySize? (cs : List Char) : Option ArraySize :=
  let cs := Text.trim cs
  if cs = ['.', '.', '.'] then some .auto
  else (Text.readDecimal64? cs).map .fixed

/-- How a spelling is put together that starts with a bracket of an array or map,
given what comes after that bracket. -/
def bracketShape? (inner : List Char) : Option Shape := do
  let (head, tail) ← splitClose '[' ']' 0 inner
  match splitFirst ':' 0 head with
  | some (key, value) => if tail.isEmpty then some (.map key value) else none
  | none => (arraySize? head).map (.array · tail)

/-- How a spelling is put together that starts with a bracket of a tuple, given
what comes after that bracket. -/
def tupleShape? (inner : List Char) : Option Shape := do
  let (head, tail) ← splitClose '(' ')' 0 inner
  if tail.isEmpty then some (.tuple (splitAll ',' 0 head)) else none

/-- How a spelling without pointer marks is put together. -/
def shape? : List Char → Option Shape
  | '[' :: ']' :: element => some (.slice element)
  | '[' :: inner => bracketShape? inner
  | '(' :: inner => tupleShape? inner
  | cs => (ofName? (String.ofList cs)).map .named

theorem bracketShape?_length {inner part : List Char} {s : Shape}
    (h : bracketShape? inner = some s) (hp : part ∈ s.parts) : part.length ≤ inner.length := by
  obtain ⟨⟨head, tail⟩, hc, h⟩ := Option.bind_eq_some_iff.1 h
  have hlen := splitClose_length hc
  dsimp only at h
  split at h
  · rename_i key value hf
    have := splitFirst_length hf
    split at h
    · cases h
      simp only [Shape.parts, List.mem_cons, List.not_mem_nil, or_false] at hp
      rcases hp with rfl | rfl <;> omega
    · simp at h
  · obtain ⟨_, -, rfl⟩ := Option.map_eq_some_iff.1 h
    simp only [Shape.parts, List.mem_singleton] at hp
    subst hp
    omega

theorem tupleShape?_length {inner part : List Char} {s : Shape}
    (h : tupleShape? inner = some s) (hp : part ∈ s.parts) : part.length ≤ inner.length := by
  obtain ⟨⟨head, tail⟩, hc, h⟩ := Option.bind_eq_some_iff.1 h
  have hlen := splitClose_length hc
  dsimp only at h
  split at h
  · cases h
    have := splitAll_length hp
    omega
  · simp at h

/-- Every part of a spelling is shorter than the whole. -/
theorem shape?_length {cs part : List Char} {s : Shape}
    (h : shape? cs = some s) (hp : part ∈ s.parts) : part.length < cs.length := by
  unfold shape? at h
  split at h
  · cases h
    simp only [Shape.parts, List.mem_singleton] at hp
    subst hp
    simp only [List.length_cons]
    omega
  · exact Nat.lt_succ_of_le (bracketShape?_length h hp)
  · exact Nat.lt_succ_of_le (tupleShape?_length h hp)
  · obtain ⟨_, -, rfl⟩ := Option.map_eq_some_iff.1 h
    simp [Shape.parts] at hp

/-- A spelling without its pointer marks, and without blanks around the rest. -/
def unwrapped (cs : List Char) : List Char := Text.trim (cs.dropWhile (· = '*'))

theorem length_unwrapped_le (cs : List Char) : (unwrapped cs).length ≤ cs.length :=
  Nat.le_trans (Text.length_trim_le _) (List.dropWhile_suffix _).length_le

/-- The type that is spelled so. -/
def read? (cs : List Char) : Option Ty := do
  let t ←
    match h : shape? (unwrapped cs) with
    | none => none
    | some s =>
      have smaller : ∀ part ∈ s.parts, part.length < cs.length := fun _ hp =>
        Nat.lt_of_lt_of_le (shape?_length h hp) (length_unwrapped_le cs)
      match s, smaller with
      | .named t, _ => some t
      | .slice element, smaller =>
        have := smaller element (List.mem_singleton_self _)
        (read? element).map sliceOf
      | .array size element, smaller =>
        have := smaller element (List.mem_singleton_self _)
        (read? element).map (arrayOf · size)
      | .map key value, smaller =>
        have := smaller key (List.mem_cons_self ..)
        have := smaller value (List.mem_cons_of_mem _ (List.mem_singleton_self _))
        (read? key).bind fun k => (read? value).map (mapOf k)
      | .tuple components, smaller =>
        (components.attach.mapM fun (part : { part // part ∈ components }) =>
          have := smaller part.1 part.2
          read? part.1).map tupleOf
  return t.addPointers (cs.takeWhile (· = '*')).length
termination_by cs.length

/-- The type that is spelled so, if it is one that needs no declaration. -/
def ofSpelling? (s : String) : Option Ty := read? s.toList

end ExprCheck.Ty
