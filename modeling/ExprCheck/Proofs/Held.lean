/-
ExprCheck.Proofs.Held — which constants a value of a type may carry.

A type does not say by itself in which form a constant of it is held, and the types
of the source language do not keep a text from being declared under a number. This
module has the three conditions on a type and its constant that evaluation keeps:

* `Ty.Exact` — under an integer type there is a signed or unsigned integer;
* `Ty.Admits` — under every type that holds its values directly there is a constant
  of the form that goes with it;
* `Ty.InRange` — under an integer type there is a value of the type's kind.

An enum is judged by the type that its items are stored in in the end, `Ty.stored`.
All three are derived from `Made`, which lists what evaluation itself puts together
from a type and a constant.
-/
import ExprCheck.Operator.Resolve

namespace ExprCheck

/-- A constant of the form that goes with the category. -/
def Category.Admits : Category → Constant → Prop
  | .number kind, c => if kind.isFloat then c.isNumeric else c.integer?.isSome
  | .bool, .bool _ => True
  | .str, .str _ => True
  | _, _ => False

theorem Category.admits_number {kind : NumberKind} {c : Constant} :
    (Category.number kind).Admits c ↔
      if kind.isFloat then c.isNumeric else c.integer?.isSome := by
  simp [Category.Admits]

/-- An integer kind takes integers. -/
theorem Category.admits_integer {kind : NumberKind} {c : Constant} (h : kind.isInteger) :
    (Category.number kind).Admits c ↔ c.integer?.isSome := by
  have hf : kind.isFloat = false := by simpa [NumberKind.isInteger] using h
  simp [Category.admits_number, hf]

/-- A float takes numbers of every form. -/
theorem Category.admits_float {kind : NumberKind} {c : Constant} (h : ¬kind.isInteger) :
    (Category.number kind).Admits c ↔ c.isNumeric := by
  have hf : kind.isFloat = true := by simpa [NumberKind.isInteger] using h
  simp [Category.admits_number, hf]

/-! ## 1. What enums are stored in -/

namespace Ty

/-- The type that values are stored in, once all enums are opened. -/
def stored (t : Ty) : Ty :=
  match _h : t.storage? with
  | some s => s.stored
  | none => t
termination_by t.storageDepth
decreasing_by exact storageDepth_lt _h

theorem stored_of_storage {t s : Ty} (h : t.storage? = some s) : t.stored = s.stored := by
  rw [stored]
  split
  · rename_i s' hs
    rw [h, Option.some.injEq] at hs
    rw [hs]
  · rename_i hs
    rw [h] at hs
    simp at hs

theorem stored_of_not_isEnum {t : Ty} (h : t.isEnum = false) : t.stored = t := by
  have hs : t.storage? = none := by
    unfold storage?
    split <;> simp [h]
  rw [stored]
  split
  · rename_i s' hs'
    rw [hs] at hs'
    simp at hs'
  · rfl

/-! ## 2. Categories of types -/

theorem numberKind?_eq_some {t : Ty} {kind : NumberKind} :
    t.numberKind? = some kind ↔ t.isPointer = false ∧ t.category = .number kind := by
  unfold numberKind? bareCategory?
  cases t.isPointer <;> cases t.category <;> simp [Category.number?]

@[simp] theorem numberKind?_number (kind : NumberKind) : (number kind).numberKind? = some kind :=
  rfl

theorem stored_of_numberKind {t : Ty} {kind : NumberKind} (h : t.numberKind? = some kind) :
    t.stored = t := by
  obtain ⟨hp, hc⟩ := numberKind?_eq_some.1 h
  exact stored_of_not_isEnum (by simp [isEnum, bareCategory?, hp, hc])

theorem stored_of_isBool {t : Ty} (h : t.isBool) : t.stored = t ∧ t.category = .bool := by
  have hb : t.bareCategory? = some .bool := by simpa [isBool] using h
  refine ⟨stored_of_not_isEnum (by simp [isEnum, hb]), ?_⟩
  unfold bareCategory? at hb
  split at hb
  · simp at hb
  · simpa using hb

theorem isInteger_of_numberKind {t : Ty} {kind : NumberKind} (h : t.numberKind? = some kind) :
    t.isInteger = kind.isInteger := by
  simp [isInteger, h]

theorem bareCategory?_of_numberKind {t : Ty} {kind : NumberKind} (h : t.numberKind? = some kind) :
    t.bareCategory? = some (.number kind) := by
  obtain ⟨hpointer, hcategory⟩ := numberKind?_eq_some.1 h
  rw [bareCategory?, hpointer, hcategory]
  rfl

theorem isPure_of_numberKind {t : Ty} {kind : NumberKind} (h : t.numberKind? = some kind) :
    t.isPure = true := by
  rw [isPure, bareCategory?_of_numberKind h]

/-! ## 3. The conditions -/

/-- Under an integer type, or an enum stored in one, the constant is an integer. -/
def Exact (t : Ty) (c : Constant) : Prop := t.stored.isInteger → c.integer?.isSome

/-- The constant has a form that values of the type have: an integer type takes
integers, a float any number, truth values and texts their own, an enum what the type
takes that it is stored in, and no other type that is held directly takes any. -/
def Admits (t : Ty) (c : Constant) : Prop :=
  t.stored.isPure → t.stored.category.Admits c

/-- Under an integer type, or an enum stored in one, the constant is a value of the
type's kind. -/
def InRange (t : Ty) (c : Constant) : Prop :=
  ∀ kind, t.stored.numberKind? = some kind → kind.isInteger →
    ∃ n, c.integer? = some n ∧ kind.Holds n

end Ty

/-! ## 4. Casts and narrowest kinds -/

namespace Constant

theorem integer?_cast {kind : NumberKind} (h : kind.isInteger) (c : Constant) :
    (c.cast kind).integer?.isSome := by
  have hf : kind.isFloat = false := by simpa [NumberKind.isInteger] using h
  unfold cast
  rw [if_neg (by simp [hf])]
  split <;> rfl

theorem isNumeric_cast (kind : NumberKind) (c : Constant) : (c.cast kind).isNumeric := by
  unfold cast
  split
  · rfl
  · split <;> rfl

/-- A cast gives the form that goes with the kind. -/
theorem admits_cast (kind : NumberKind) (c : Constant) :
    (Category.number kind).Admits (c.cast kind) := by
  by_cases hk : kind.isInteger
  · exact (Category.admits_integer hk).2 (integer?_cast hk c)
  · exact (Category.admits_float hk).2 (isNumeric_cast kind c)

theorem narrowestKind?_of_isNumeric {c : Constant} (h : c.isNumeric) :
    ∃ kind, c.narrowestKind? = some kind := by
  cases c <;> simp_all [isNumeric, narrowestKind?]

theorem signedOfBits_holds (n : Int64) :
    (NumberKind.signedOfBits (bitsOfSigned n)).Holds n.toInt := by
  unfold bitsOfSigned
  split
  · assumption
  split
  · assumption
  split
  · assumption
  · exact ⟨n.le_toInt, Int.le_of_lt_add_one n.toInt_lt⟩

theorem unsignedOfBits_holds (n : UInt64) :
    (NumberKind.unsignedOfBits (bitsOfUnsigned n)).Holds n.toNat := by
  unfold bitsOfUnsigned
  split
  · assumption
  split
  · assumption
  split
  · assumption
  · have := n.toNat_lt
    refine ⟨Int.natCast_nonneg _, ?_⟩
    show (n.toNat : Int) ≤ 2 ^ 64 - 1
    omega

/-- The narrowest kind of a number is an integer kind only if the number is held as an
integer, and then it is a value of the kind. -/
theorem holds_narrowestKind {c : Constant} {kind : NumberKind} (h : c.narrowestKind? = some kind)
    (hk : kind.isInteger) : ∃ n, c.integer? = some n ∧ kind.Holds n := by
  cases c with
  | bool b => simp [narrowestKind?] at h
  | str s => simp [narrowestKind?] at h
  | signed n =>
    simp only [narrowestKind?, Option.some.injEq] at h
    exact ⟨n.toInt, rfl, h ▸ signedOfBits_holds n⟩
  | unsigned n =>
    simp only [narrowestKind?, Option.some.injEq] at h
    exact ⟨n.toNat, rfl, h ▸ unsignedOfBits_holds n⟩
  | float x =>
    simp only [narrowestKind?, Option.some.injEq, NumberKind.floatOfBits] at h
    -- a float is narrowed to a float kind, which `hk` rules out
    subst h
    split at hk <;> simp [NumberKind.isInteger, NumberKind.isFloat] at hk

theorem isNumeric_of_narrowestKind {c : Constant} {kind : NumberKind}
    (h : c.narrowestKind? = some kind) : c.isNumeric := by
  cases c <;> simp_all [isNumeric, narrowestKind?]

/-- Zero is a value of every integer kind. -/
theorem holds_zero {kind : NumberKind} (h : kind.isInteger) :
    ∃ n, (zero kind).integer? = some n ∧ kind.Holds n := by
  refine ⟨0, ?_, ?_⟩
  · cases kind <;> first | rfl | simp [NumberKind.isInteger, NumberKind.isFloat] at h
  · cases kind <;> decide

end Constant

/-! ## 5. What evaluation puts together -/

/-- The type and the constant of a value that evaluation makes, other than by taking
it out of the scope. With `shifts` the values of shifts are among them, whose type
goes by the amount and not by the value. -/
inductive Made (shifts : Prop) : Ty → Option Constant → Prop
  | unknown (type : Ty) : Made shifts type none
  | truth {type : Ty} (h : type.isBool) (b : Bool) : Made shifts type (some (.bool b))
  | text (s : String) : Made shifts Ty.str (some (.str s))
  | number {c : Constant} {kind : NumberKind} (h : c.narrowestKind? = some kind) :
      Made shifts (Ty.number kind) (some c)
  | zero {type : Ty} {kind : NumberKind} (h : type.numberKind? = some kind) :
      Made shifts type (some (.zero kind))
  | shifted (h : shifts) (kind : NumberKind) (c : Constant) :
      Made shifts (Ty.number kind) (some (c.cast kind))

namespace Made

variable {shifts : Prop} {type : Ty} {c : Constant}

theorem mono {shifts' : Prop} {const : Option Constant} (h : Made shifts type const)
    (hs : shifts → shifts') : Made shifts' type const := by
  cases h with
  | unknown => exact .unknown _
  | truth h b => exact .truth h b
  | text s => exact .text s
  | number h => exact .number h
  | zero h => exact .zero h
  | shifted h kind c => exact .shifted (hs h) kind c

theorem admits (h : Made shifts type (some c)) : type.Admits c := by
  intro hp
  cases h with
  | truth h b =>
    obtain ⟨hstored, hc⟩ := Ty.stored_of_isBool h
    rw [hstored, hc]
    trivial
  | text s =>
    rw [Ty.stored_of_not_isEnum rfl]
    trivial
  | @number _ kind h =>
    rw [Ty.stored_of_not_isEnum rfl]
    by_cases hk : kind.isInteger
    · obtain ⟨n, hn, -⟩ := Constant.holds_narrowestKind h hk
      exact (Category.admits_integer hk).2 (by simp [hn])
    · exact (Category.admits_float hk).2 (Constant.isNumeric_of_narrowestKind h)
  | @zero _ kind h =>
    rw [Ty.stored_of_numberKind h, (Ty.numberKind?_eq_some.1 h).2]
    exact Constant.admits_cast kind _
  | shifted _ kind c =>
    rw [Ty.stored_of_not_isEnum rfl]
    exact Constant.admits_cast kind c

theorem inRange (h : Made False type (some c)) : type.InRange c := by
  intro kind hkind hint
  cases h with
  | truth h b =>
    obtain ⟨hstored, hc⟩ := Ty.stored_of_isBool h
    rw [hstored] at hkind
    rw [(Ty.numberKind?_eq_some.1 hkind).2] at hc
    cases hc
  | text s =>
    rw [Ty.stored_of_not_isEnum rfl] at hkind
    cases hkind
  | number h =>
    rw [Ty.stored_of_not_isEnum rfl, Ty.numberKind?_number, Option.some.injEq] at hkind
    subst hkind
    exact Constant.holds_narrowestKind h hint
  | zero h =>
    rw [Ty.stored_of_numberKind h, h, Option.some.injEq] at hkind
    subst hkind
    exact Constant.holds_zero hint
  | shifted h => exact h.elim

end Made

namespace Ty

/-- A constant of the right form is an integer under an integer type. -/
theorem Admits.exact {t : Ty} {c : Constant} (h : t.Admits c) : t.Exact c := by
  intro hi
  obtain ⟨kind, hk⟩ : ∃ kind, t.stored.numberKind? = some kind := by
    cases hk : t.stored.numberKind? with
    | none => simp [isInteger, hk] at hi
    | some kind => exact ⟨kind, rfl⟩
  have ha := h (isPure_of_numberKind hk)
  rw [isInteger_of_numberKind hk] at hi
  rw [(numberKind?_eq_some.1 hk).2] at ha
  exact (Category.admits_integer hi).1 ha

end Ty

end ExprCheck
