/-
ExprCheck.Proofs.Compatible — the rules of compatibility, one at a time.

`verdict?` tries its rules in order, and which of two types comes first can matter to a
rule. `Decides` says what is known of two types where each of the rules decides and
what its verdict is, as far as possible without regard to their order; `decides_verdict?`
is the one place where the chain of rules is gone through for that. `compatible_eq` says
that the verdict stands, and that two tuples that no rule decides go by their components.
-/
import ExprCheck.Proofs.Parts
import ExprCheck.Ty.Compatible

namespace ExprCheck.Ty

variable {ignoreAny : Bool} {a b t : Ty}

/-! ## 1. Sorts of types -/

section

variable (element key value : Ty) (size : ArraySize)

@[simp] theorem bareCategory?_sliceOf : (sliceOf element).bareCategory? = some .slice := rfl

@[simp] theorem bareCategory?_arrayOf :
    (arrayOf element size).bareCategory? = some .array := rfl

@[simp] theorem bareCategory?_mapOf : (mapOf key value).bareCategory? = some .map := rfl

@[simp] theorem bareCategory?_funcOf (signature : Signature Ty) :
    (funcOf signature).bareCategory? = some .func := rfl

/-- Slices have the marks of a slice in their name. -/
theorem isSlice_sliceOf : (sliceOf element).isSlice := by
  have hname : (sliceOf element).nameBegins ['[', ']'] := by
    simp [nameBegins, sliceOf, rename, derivedName?, simple]
  rw [isSlice, bareCategory?_sliceOf, hname]
  rfl

theorem isMap_mapOf : (mapOf key value).isMap := by
  have hbegins : (mapOf key value).nameBegins ['['] := by
    simp [nameBegins, mapOf, rename, derivedName?, simple]
  have hname : (mapOf key value).name = "[" ++ key.spelling ++ ":" ++ value.spelling ++ "]" := rfl
  have hends : (mapOf key value).nameEnds ']' := by
    rw [nameEnds, hname, String.toList_append, List.getLast?_append]
    rfl
  rw [isMap, bareCategory?_mapOf, hbegins, hends]
  rfl

theorem isFunc_funcOf (signature : Signature Ty) : (funcOf signature).isFunc := by
  have hname : (funcOf signature).nameBegins ['('] := by
    simp only [nameBegins, funcOf, rename, derivedName?, simple, Option.getD_some]
    split <;> simp
  rw [isFunc, bareCategory?_funcOf, hname]
  rfl

end

theorem bareCategory?_of_isPointer (h : t.isPointer) : t.bareCategory? = none := if_pos h

theorem isPointer_of_bareCategory? {c : Category} (h : t.bareCategory? = some c) :
    t.isPointer = false := by
  rw [← Bool.not_eq_true]
  intro hp
  rw [bareCategory?_of_isPointer hp] at h
  cases h

theorem bareCategory?_of_isSlice (h : t.isSlice) : t.bareCategory? = some .slice := by
  simp only [isSlice, Bool.and_eq_true, beq_iff_eq] at h
  exact h.1

theorem bareCategory?_of_isArray (h : t.isArray) : t.bareCategory? = some .array := by
  simp only [isArray, Bool.and_eq_true, beq_iff_eq] at h
  exact h.1.1

theorem bareCategory?_of_isMap (h : t.isMap) : t.bareCategory? = some .map := by
  simp only [isMap, Bool.and_eq_true, beq_iff_eq] at h
  exact h.1.1

theorem bareCategory?_of_isFunc (h : t.isFunc) : t.bareCategory? = some .func := by
  simp only [isFunc, Bool.and_eq_true, beq_iff_eq] at h
  exact h.1

theorem isNil_eq_false {c : Option Category} (h : t.bareCategory? = c) (hc : c ≠ some .nil) :
    t.isNil = false := by
  simpa [isNil, h] using hc

theorem isNil_of_isPointer (h : t.isPointer) : t.isNil = false :=
  isNil_eq_false (bareCategory?_of_isPointer h) nofun

theorem isNil_of_isSlice (h : t.isSlice) : t.isNil = false :=
  isNil_eq_false (bareCategory?_of_isSlice h) nofun

theorem isNil_of_isMap (h : t.isMap) : t.isNil = false :=
  isNil_eq_false (bareCategory?_of_isMap h) nofun

theorem isNil_of_isFunc (h : t.isFunc) : t.isNil = false :=
  isNil_eq_false (bareCategory?_of_isFunc h) nofun

/-- Past the rules for pointers, slices, traits and maps, what admits `nil` is `nil` or
a function. -/
theorem isNil_or_isFunc (h : t.admitsNil) (hpointer : t.isPointer = false)
    (hslice : t.isSlice = false) (hmap : t.isMap = false) (htrait : t.isTrait = false) :
    t.isNil ∨ t.isFunc := by
  simpa [admitsNil, hpointer, hslice, hmap, htrait] using h

/-! ## 2. Rules without regard to order -/

/-- One of the types is `nil`, or both are spelled alike. -/
def nilOrSame (a b : Ty) : Bool := a.isNil || b.isNil || a.spelling == b.spelling

theorem nilOrSame_comm (a b : Ty) : nilOrSame a b = nilOrSame b a := by
  rw [nilOrSame, nilOrSame, Bool.or_comm a.isNil, Bool.beq_comm]

/-- The rule for pointers, slices and maps, each of which is not `nil` itself. -/
theorem judged_nilOrSame {applies : Ty → Bool} (h : applies a || applies b)
    (hnil : ∀ {t}, applies t → t.isNil = false) :
    (if applies b then meetsNilOrSame b a else meetsNilOrSame a b) = nilOrSame a b := by
  unfold meetsNilOrSame nilOrSame
  by_cases hb : applies b
  · rw [if_pos hb, hnil hb, Bool.or_false, Bool.beq_comm]
  · have ha : applies a := by simpa [hb] using h
    rw [if_neg hb, hnil ha, Bool.false_or]

/-- Both types are arrays, of one count. -/
def sameCount (a b : Ty) : Bool := a.isArray && b.isArray && a.count? == b.count?

theorem sameCount_comm (a b : Ty) : sameCount a b = sameCount b a := by
  rw [sameCount, sameCount, Bool.and_comm a.isArray, Bool.beq_comm]

theorem judged_sameCount (h : a.isArray || b.isArray) :
    (if b.isArray then meetsArray b a else meetsArray a b) = sameCount a b := by
  unfold meetsArray sameCount
  by_cases hb : b.isArray
  · rw [if_pos hb, hb, Bool.and_true, Bool.beq_comm]
  · have ha : a.isArray := by simpa [hb] using h
    rw [if_neg hb, ha, Bool.true_and]

/-- Structs are one declaration if their name and their file are. -/
theorem sameAs_iff (d e : StructDef Ty) : d.sameAs e ↔ d.name = e.name ∧ d.file = e.file := by
  rw [StructDef.sameAs, Bool.and_eq_true, beq_iff_eq, beq_iff_eq]

theorem verdict?_of_isPointer (h : a.isPointer || b.isPointer) :
    verdict? ignoreAny a b = some (nilOrSame a b) := by
  rw [← judged_nilOrSame h isNil_of_isPointer]
  exact if_pos h

theorem verdict?_of_isSlice (hpointer : ¬(a.isPointer || b.isPointer))
    (h : a.isSlice || b.isSlice) : verdict? ignoreAny a b = some (nilOrSame a b) := by
  rw [← judged_nilOrSame h isNil_of_isSlice]
  exact (if_neg hpointer).trans (if_pos h)

theorem verdict?_of_isArray (hpointer : ¬(a.isPointer || b.isPointer))
    (hslice : ¬(a.isSlice || b.isSlice)) (h : a.isArray || b.isArray) :
    verdict? ignoreAny a b = some (sameCount a b) := by
  rw [← judged_sameCount h]
  exact (if_neg hpointer).trans ((if_neg hslice).trans (if_pos h))

theorem verdict?_of_isMap (hpointer : ¬(a.isPointer || b.isPointer))
    (hslice : ¬(a.isSlice || b.isSlice)) (harray : ¬(a.isArray || b.isArray))
    (h : a.isMap || b.isMap) : verdict? ignoreAny a b = some (nilOrSame a b) := by
  rw [← judged_nilOrSame h isNil_of_isMap]
  exact (if_neg hpointer).trans ((if_neg hslice).trans ((if_neg harray).trans (if_pos h)))

/-! ## 3. Which rule decides -/

/-- None of the rules up to that for `nil` and functions applies to the type. -/
structure Direct (t : Ty) : Prop where
  not_admitsNil : t.admitsNil = false
  not_isArray : t.isArray = false

/-- What is known of two types where each of the rules decides, and its verdict. -/
inductive Decides (ignoreAny : Bool) (a b : Ty) : Option Bool → Prop
  | pointer (h : a.isPointer ∨ b.isPointer) : Decides ignoreAny a b (some (nilOrSame a b))
  | slice (h : a.isSlice ∨ b.isSlice) : Decides ignoreAny a b (some (nilOrSame a b))
  | array (h : a.isArray ∨ b.isArray) : Decides ignoreAny a b (some (sameCount a b))
  | map (h : a.isMap ∨ b.isMap) : Decides ignoreAny a b (some (nilOrSame a b))
  | trait (h : a.isTrait ∨ b.isTrait) :
      Decides ignoreAny a b (some (if b.isTrait then meetsTrait b a else meetsTrait a b))
  | nilLeft (h : a.isNil ∨ a.isFunc) : Decides ignoreAny a b (some b.isNil)
  | nilRight (h : b.isNil ∨ b.isFunc) : Decides ignoreAny a b (some a.isNil)
  | enum (h : a.isEnum ∨ b.isEnum) :
      Decides ignoreAny a b (some (a.category = b.category ∧ a.name = b.name))
  | struct (h : a.isStruct ∨ b.isStruct) : Decides ignoreAny a b (some (meetsStruct a b))
  | any (ha : a.Direct) (hb : b.Direct) (h : a.isAny ∨ b.isAny) :
      Decides ignoreAny a b (some (ignoreAny || (a.isAny && b.isAny)))
  | number {k k' : NumberKind} (ha : a.bareCategory? = some (.number k))
      (hb : b.bareCategory? = some (.number k')) : Decides ignoreAny a b (some (k = k'))
  | same {c : Category} (hc : c = .bool ∨ c = .str ∨ c = .void) (ha : a.bareCategory? = some c)
      (hb : b.bareCategory? = some c) : Decides ignoreAny a b (some true)
  | generic (ha : a.bareCategory? = some .generic) (hb : b.bareCategory? = some .generic) :
      Decides ignoreAny a b (some (a.name = b.name))
  | tuple (ha : a.bareCategory? = some .tuple) (hb : b.bareCategory? = some .tuple) :
      Decides ignoreAny a b none
  /-- No rule is for the two. -/
  | apart : Decides ignoreAny a b (some false)

/-- The rules, in their order. -/
theorem decides_verdict? (ignoreAny : Bool) (a b : Ty) :
    Decides ignoreAny a b (verdict? ignoreAny a b) := by
  by_cases hpointer : a.isPointer || b.isPointer
  · rw [verdict?_of_isPointer hpointer]
    exact .pointer (Bool.or_eq_true_iff.1 hpointer)
  by_cases hslice : a.isSlice || b.isSlice
  · rw [verdict?_of_isSlice hpointer hslice]
    exact .slice (Bool.or_eq_true_iff.1 hslice)
  by_cases harray : a.isArray || b.isArray
  · rw [verdict?_of_isArray hpointer hslice harray]
    exact .array (Bool.or_eq_true_iff.1 harray)
  by_cases hmap : a.isMap || b.isMap
  · rw [verdict?_of_isMap hpointer hslice harray hmap]
    exact .map (Bool.or_eq_true_iff.1 hmap)
  rw [verdict?, if_neg hpointer, if_neg hslice, if_neg harray, if_neg hmap]
  by_cases htrait : a.isTrait || b.isTrait
  · rw [if_pos htrait]
    exact .trait (Bool.or_eq_true_iff.1 htrait)
  rw [if_neg htrait]
  simp only [Bool.or_eq_true, not_or, Bool.not_eq_true] at hpointer hslice harray hmap htrait
  by_cases ha : a.admitsNil
  · rw [if_pos ha]
    exact .nilLeft (isNil_or_isFunc ha hpointer.1 hslice.1 hmap.1 htrait.1)
  rw [if_neg ha]
  by_cases hb : b.admitsNil
  · rw [if_pos hb]
    exact .nilRight (isNil_or_isFunc hb hpointer.2 hslice.2 hmap.2 htrait.2)
  rw [if_neg hb]
  by_cases henum : a.isEnum || b.isEnum
  · rw [if_pos henum]
    exact .enum (Bool.or_eq_true_iff.1 henum)
  rw [if_neg henum]
  by_cases hstruct : a.isStruct || b.isStruct
  · rw [if_pos hstruct]
    exact .struct (Bool.or_eq_true_iff.1 hstruct)
  rw [if_neg hstruct]
  by_cases hany : a.isAny || b.isAny
  · rw [if_pos hany]
    rw [Bool.not_eq_true] at ha hb
    exact .any ⟨ha, harray.1⟩ ⟨hb, harray.2⟩ (Bool.or_eq_true_iff.1 hany)
  rw [if_neg hany]
  have ha : a.bareCategory? = some a.category := by rw [bareCategory?, hpointer.1]; rfl
  have hb : b.bareCategory? = some b.category := by rw [bareCategory?, hpointer.2]; rfl
  split
  · rename_i ha' hb'
    exact .number (ha' ▸ ha) (hb' ▸ hb)
  · rename_i ha' hb'
    exact .same (.inl rfl) (ha' ▸ ha) (hb' ▸ hb)
  · rename_i ha' hb'
    exact .same (.inr (.inl rfl)) (ha' ▸ ha) (hb' ▸ hb)
  · rename_i ha' hb'
    exact .same (.inr (.inr rfl)) (ha' ▸ ha) (hb' ▸ hb)
  · rename_i ha' hb'
    exact .generic (ha' ▸ ha) (hb' ▸ hb)
  · rename_i ha' hb'
    exact .tuple (ha' ▸ ha) (hb' ▸ hb)
  · exact .apart

/-! ## 4. Components -/

theorem category_of_bareCategory? {c : Category} (h : t.bareCategory? = some c) :
    t.category = c := by
  unfold bareCategory? at h
  split at h
  · cases h
  · exact Option.some.inj h

theorem category_of_verdict?_eq_none (h : verdict? ignoreAny a b = none) :
    a.category = .tuple ∧ b.category = .tuple := by
  have hd := decides_verdict? ignoreAny a b
  rw [h] at hd
  cases hd with
  | tuple ha hb => exact ⟨category_of_bareCategory? ha, category_of_bareCategory? hb⟩

/-- The verdict of the rules stands. Where there is none the components decide. -/
theorem compatible_eq (ignoreAny : Bool) (a b : Ty) :
    compatible ignoreAny a b = (verdict? ignoreAny a b).getD
      (match a.components?, b.components? with
        | some as, some bs => compatibleAll ignoreAny as bs
        | _, _ => false) := by
  obtain ⟨category, name, pointers, element, payload, size, origin, isPlaceholder⟩ := a
  rw [compatible]
  split
  · rename_i v hv
    rw [hv, Option.getD_some]
  · rename_i hv
    obtain ⟨rfl, -⟩ := category_of_verdict?_eq_none hv
    rw [hv, Option.getD_none]
    cases payload with
    | tuple components =>
      rw [compatiblePayload]
      cases b.components? <;> rfl
    | _ => rfl

/-- Types of the category of arrays meet if they are told as arrays and what is known of their
counts is the same. -/
theorem compatible_of_array (ha : a.bareCategory? = some .array)
    (hb : b.bareCategory? = some .array) : compatible ignoreAny a b = sameCount a b := by
  have hpa := isPointer_of_bareCategory? ha
  have hpb := isPointer_of_bareCategory? hb
  have hpointer : ¬(a.isPointer || b.isPointer) := by simp [hpa, hpb]
  have hslice : ¬(a.isSlice || b.isSlice) := by simp [isSlice, ha, hb]
  suffices verdict? ignoreAny a b = some (sameCount a b) by
    rw [compatible_eq, this, Option.getD_some]
  by_cases harray : a.isArray || b.isArray
  · exact verdict?_of_isArray hpointer hslice harray
  · -- no other rule is for arrays, also where the name does not tell them as such
    have hsame : sameCount a b = false := by simp_all [sameCount]
    have hca := category_of_bareCategory? ha
    have hcb := category_of_bareCategory? hb
    rw [verdict?, if_neg hpointer, if_neg hslice, if_neg harray, hsame]
    simp [isMap, isTrait, admitsNil, isNil, isFunc, isSlice, isEnum, isStruct, isAny, hpa, hpb, ha,
      hb, hca, hcb]

theorem mem_parts_of_component {c : Ty} {cs : List Ty} (h : t.components? = some cs)
    (hc : c ∈ cs) : c ∈ t.parts := by
  unfold components? at h
  split at h
  · rename_i hp
    cases h
    rw [parts, hp]
    exact List.mem_append_right _ hc
  · cases h

/-- What holds of a type if it holds of its components holds of every type. -/
theorem induction_on_components {P : Ty → Prop}
    (h : ∀ t, (∀ cs, t.components? = some cs → ∀ c ∈ cs, P c) → P t) (t : Ty) : P t := by
  induction t using induction_on_parts with
  | h t ih => exact h t fun cs hcs c hc => ih c (mem_parts_of_component hcs hc)

end ExprCheck.Ty
