/-
ExprCheck.Proofs.Shapes — a type has one shape.

A type is a pointer or a slice or an array, and so on. Most shapes are told by the category
alone, but slices, arrays, maps and functions are also told by the marks in the name, so that
a name and a category that do not go together would leave a type without a shape. The names of
types that come up are made of their parts (`ExprCheck.Proofs.Reachable`), and so they have
the marks of their category.

There is one exception. The name of an array has its size between brackets, and a size that is
an expression can have any text. If it has none, or begins with a closing bracket, the name
begins as the name of a slice does, and the array is not told as one. `LosesMark` is that case;
such an array has no shape, and every other type that comes up has exactly one
(`shapes_of_reachable`).
-/
import ExprCheck.Proofs.Compatible
import ExprCheck.Proofs.Reachable

namespace ExprCheck.Ty

variable {t : Ty}

/-! ## 1. Shapes -/

/-- The type is a placeholder, and not a pointer to what it stands for. -/
def isGeneric (t : Ty) : Bool := t.bareCategory? == some .generic

/-- What a type can be. -/
def shapes : List (Ty → Bool) :=
  [isPointer, isSlice, isArray, isMap, isFunc, isStruct, isTrait, isEnum, isTuple, isBool, isStr,
    isNil, isAny, isVoid, isNumeric, isGeneric]

/-- The number of shapes that the type has. -/
def countShapes (t : Ty) : Nat := shapes.countP fun shape => shape t

theorem countShapes_of_isPointer (h : t.isPointer) : t.countShapes = 1 := by
  simp [countShapes, shapes, isSlice, isArray, isMap, isFunc, isStruct, isTrait, isEnum, isTuple,
    isBool, isStr, isNil, isAny, isVoid, isNumeric, numberKind?, isGeneric, h,
    bareCategory?_of_isPointer h]

/-- A type without pointers has the shape of its category, if the marks in its name say so
where they are asked. -/
theorem countShapes_of_bareCategory? {c : Category} (h : t.bareCategory? = some c)
    (hslice : c = .slice → t.isSlice) (hmap : c = .map → t.isMap) (hfunc : c = .func → t.isFunc) :
    t.countShapes = if c = .array ∧ t.isArray = false then 0 else 1 := by
  have hpointer := isPointer_of_bareCategory? h
  have other {shape : Ty → Bool} {c' : Category} (hc : c ≠ c')
      (hshape : shape t → t.bareCategory? = some c') : shape t = false := by
    rw [← Bool.not_eq_true]
    intro ht
    have := (hshape ht).symm.trans h
    exact hc (Option.some.inj this).symm
  have notSlice (hc : c ≠ .slice) : t.isSlice = false := other hc bareCategory?_of_isSlice
  have notArray (hc : c ≠ .array) : t.isArray = false := other hc bareCategory?_of_isArray
  have notMap (hc : c ≠ .map) : t.isMap = false := other hc bareCategory?_of_isMap
  have notFunc (hc : c ≠ .func) : t.isFunc = false := other hc bareCategory?_of_isFunc
  simp only [countShapes, shapes, List.countP_cons, List.countP_nil, hpointer, isStruct, isTrait,
    isEnum, isTuple, isBool, isStr, isNil, isAny, isVoid, isNumeric, numberKind?, isGeneric, h]
  cases c with
  | slice => simp [hslice rfl, notArray, notMap, notFunc, Category.number?]
  | array =>
    cases t.isArray <;> simp [notSlice, notMap, notFunc, Category.number?]
  | map => simp [hmap rfl, notSlice, notArray, notFunc, Category.number?]
  | func => simp [hfunc rfl, notSlice, notArray, notMap, Category.number?]
  | _ => simp [notSlice, notArray, notMap, notFunc, Category.number?]

/-! ## 2. Marks -/

section

variable (h : t.NamedByParts)
include h

theorem NamedByParts.isSlice (hb : t.bareCategory? = some .slice) : t.isSlice := by
  have hc := category_of_bareCategory? hb
  have hname := h.name (by rw [hc]; rfl)
  simp only [derivedName?, hc, Option.some.injEq] at hname
  simp [Ty.isSlice, nameBegins, hb, ← hname]

theorem NamedByParts.isMap (hb : t.bareCategory? = some .map) : t.isMap := by
  have hc := category_of_bareCategory? hb
  obtain ⟨inner, hname⟩ : ∃ inner, t.name.toList = '[' :: (inner ++ [']']) := by
    have hname := h.name (by rw [hc]; rfl)
    unfold derivedName? at hname
    split at hname <;> simp_all
    rename_i key value _ _
    exact ⟨key.spelling.toList ++ ':' :: value.spelling.toList, by simp [← hname]⟩
  have hends : t.nameEnds ']' := by
    rw [nameEnds, hname, ← List.cons_append, List.getLast?_concat]
    rfl
  simp [Ty.isMap, nameBegins, hb, hname, hends]

theorem NamedByParts.isFunc (hb : t.bareCategory? = some .func) : t.isFunc := by
  have hc := category_of_bareCategory? hb
  obtain ⟨rest, hname⟩ : ∃ rest, t.name.toList = '(' :: rest := by
    have hname := h.name (by rw [hc]; rfl)
    unfold derivedName? at hname
    split at hname <;> simp_all
    split at hname <;> simp [← hname]
  simp [Ty.isFunc, nameBegins, hb, hname]

theorem NamedByParts.name_array (hc : t.category = .array) :
    ∃ size, t.size = some size ∧
      t.name.toList = '[' :: (size.text.toList ++ ']' :: t.elementSpelling.toList) := by
  obtain ⟨size, hsize⟩ := Option.isSome_iff_exists.1 (h.sized hc)
  have hname := h.name (by rw [hc]; rfl)
  simp only [derivedName?, hc, hsize, Option.some.injEq] at hname
  exact ⟨size, hsize, by simp [← hname]⟩

end

/-- An array is told as one unless its size has no text or begins with a closing bracket. -/
theorem isArray_iff {text element : List Char} (hb : t.bareCategory? = some .array)
    (hname : t.name.toList = '[' :: (text ++ ']' :: element)) :
    t.isArray ↔ ¬(text = [] ∨ text.head? = some ']') := by
  cases text with
  | nil => simp [isArray, nameBegins, hb, hname]
  | cons c cs => simp [isArray, nameBegins, hb, hname, List.isPrefixOf, @eq_comm _ ']' c]

/-- The type is an array, not a pointer to one, and its size is an expression without a text or
with one that begins with a closing bracket. -/
def LosesMark (t : Ty) : Prop :=
  t.bareCategory? = some .array ∧
    ∃ tokens, t.size = some (.deferred tokens) ∧
      (Token.textOf tokens = "" ∨ (Token.textOf tokens).toList.head? = some ']')

/-- A count is neither empty nor does it begin with a bracket. -/
theorem text_fixed (n : Nat) :
    ¬((toString n).toList = [] ∨ (toString n).toList.head? = some ']') := by
  rintro (hnil | hhead)
  · exact Text.toString_ne_nil hnil
  · have hdigit := Text.isDigit_toString (n := n) ']' (List.mem_of_mem_head? hhead)
    cases hdigit

theorem NamedByParts.isArray_iff (h : t.NamedByParts) (hb : t.bareCategory? = some .array) :
    t.isArray ↔ ¬t.LosesMark := by
  obtain ⟨size, hsize, hname⟩ := h.name_array (category_of_bareCategory? hb)
  rw [Ty.isArray_iff hb hname]
  cases size with
  | fixed n => exact iff_of_true (text_fixed n) (by simp [LosesMark, hsize])
  | auto => exact iff_of_true (by decide) (by simp [LosesMark, hsize])
  | deferred tokens => simp [LosesMark, hb, hsize, ArraySize.text]

/-! ## 3. Types that come up -/

theorem NamedByParts.countShapes (h : t.NamedByParts) :
    (¬t.LosesMark → t.countShapes = 1) ∧ (t.LosesMark → t.countShapes = 0) := by
  cases hb : t.bareCategory? with
  | none =>
    have hpointer : t.isPointer := by
      by_contra hp
      simp [bareCategory?, hp] at hb
    refine ⟨fun _ => countShapes_of_isPointer hpointer, fun hl => ?_⟩
    rw [hl.1] at hb
    cases hb
  | some c =>
    have hcount := countShapes_of_bareCategory? hb (fun hc => h.isSlice (hc ▸ hb))
      (fun hc => h.isMap (hc ▸ hb)) (fun hc => h.isFunc (hc ▸ hb))
    by_cases hc : c = .array
    · subst hc
      have harray := h.isArray_iff hb
      refine ⟨fun hl => ?_, fun hl => ?_⟩
      · rw [hcount, if_neg (by simp [harray.2 hl])]
      · have hnot : t.isArray = false := by simpa [hl] using harray
        rw [hcount, if_pos ⟨rfl, hnot⟩]
    · refine ⟨fun _ => by rw [hcount, if_neg fun h => hc h.1], fun hl => ?_⟩
      exact absurd (Option.some.inj (hb.symm.trans hl.1)) hc

/-- Of the types that come up, those that are read from a spelling among them, each has exactly
one shape, but for arrays whose size is an expression that has no text or begins with a closing
bracket. These have none. -/
theorem shapes_of_reachable (t : Ty) :
    (∀ s, ofSpelling? s = some t → Reachable t) ∧
    (Reachable t → (¬t.LosesMark → t.countShapes = 1) ∧ (t.LosesMark → t.countShapes = 0)) :=
  ⟨fun _ h => reachable_of_ofSpelling? h, fun h => h.coherent.own.countShapes⟩

/-- A map that is read; an array that is sized by a name and instantiated; and one that is
sized by a lone bracket. -/
theorem shapes_of_reachable_arrays :
    let map := mapOf str (number .i32)
    let size := ArraySize.deferred [.synthetic .identifier "n"]
    let t := (arrayOf (generic "T") size).instantiate ["T"] [map]
    let u := arrayOf t (.deferred [.synthetic .closeBracket "]"])
    ofSpelling? map.spelling = some map ∧ Reachable map ∧
      Reachable t ∧ ¬t.LosesMark ∧ t.countShapes = 1 ∧
      Reachable u ∧ u.LosesMark ∧ u.countShapes = 0 := by
  intro map size t u
  have hread : ofSpelling? map.spelling = some map :=
    (Readable.map .str (.number .i32)).read?_spelling
  have hmap : Reachable map := (shapes_of_reachable map).1 _ hread
  have ht : Reachable t :=
    .instantiate (.array (.generic "T") _) ["T"] fun a ha => List.mem_singleton.1 ha ▸ hmap
  have hu : Reachable u := .array ht _
  have hmark : ¬t.LosesMark := by
    rintro ⟨-, tokens, hsize, htext⟩
    have htokens : tokens = [.synthetic .identifier "n"] := by
      have : t.size = some (.deferred [.synthetic .identifier "n"]) := by decide +kernel
      simpa using hsize.symm.trans this
    subst htokens
    revert htext
    decide
  have hlost : u.LosesMark := ⟨rfl, _, rfl, .inr (by decide)⟩
  exact ⟨hread, hmap, ht, hmark, ((shapes_of_reachable t).2 ht).1 hmark,
    hu, hlost, ((shapes_of_reachable u).2 hu).2 hlost⟩

/-- An array whose size has no tokens is nothing that a type can be, and does not even meet
itself. -/
theorem arrayOf_without_shape :
    let t := arrayOf (number .i32) (.deferred [])
    Reachable t ∧ (∀ shape ∈ shapes, shape t = false) ∧ t.category = .array ∧
      compatible false t t = false := by
  intro t
  have hcount : t.countShapes = 0 := by decide
  refine ⟨.array (.number .i32) _, fun shape hshape => ?_, rfl, ?_⟩
  · simpa using List.countP_eq_zero.1 hcount shape hshape
  · decide

end ExprCheck.Ty
