/-
ExprCheck.Proofs.Ranges — what goes into variables of numeric types.

Whether a value goes into a variable is decided in one of two ways, by the range of the type
or by the types alone. `assignProblem?_ranged` and `assignProblem?_typed` say what is wrong
on either way, and `Value.checkAssign_reports` that it is reported. The range decides about every
known integer that is to go into an integer type, and it is compared in words of 64 bits:
`Constant.isInRange_iff` is that no comparison goes wrong, whichever of the two forms the
integer has (`checkAssign_integer`).

What is no number cannot go in by its type: no rule of compatibility lets a number meet
anything but a number of its kind (`compatible_number`). Pointers, slices and maps go by their
spelling, but numbers are not spelled with marks. The range is left, and it is asked of a
float only whether the constant is a number. Of the types that are no numbers enums alone have
such constants, and they go into floats (`checkAssign_other`).
-/
import ExprCheck.Proofs.Integers
import ExprCheck.Proofs.Swapped

namespace ExprCheck

open Check

/-! ## 1. Ranges in words -/

namespace NumberKind

theorem toInt_leastWord (k : NumberKind) : k.leastWord.toInt = k.least := by
  cases k <;> decide

theorem toNat_greatestWord (k : NumberKind) : (k.greatestWord.toNat : Int) = k.greatest := by
  cases k <;> decide

/-- Integers are not negative in a kind that is not signed. -/
theorem least_of_not_isSigned {k : NumberKind} (h : k.isSigned = false) : k.least = 0 := by
  rw [least, h, if_neg Bool.false_ne_true]

theorem least_le_zero (k : NumberKind) : k.least ≤ 0 := by
  cases k <;> decide

end NumberKind

namespace Constant

/-- The range that is compared with is the one of the kind. -/
theorem isInRange_iff {kind : NumberKind} {c : Constant} {n : Int} (h : c.integer? = some n) :
    c.isInRange kind ↔ kind.Holds n := by
  rw [NumberKind.Holds, ← kind.toNat_greatestWord]
  cases c with
  | signed x =>
    cases h
    rw [isInRange]
    cases hs : kind.isSigned with
    | true => simp [Int64.le_iff_toInt_le, kind.toInt_leastWord]
    | false =>
      have hzero : (0 : Int64).toInt = 0 := by decide
      rw [kind.least_of_not_isSigned hs]
      simp only [Bool.false_eq_true, if_false, Bool.and_eq_true, decide_eq_true_eq,
        Int64.le_iff_toInt_le, hzero, UInt64.le_iff_toNat_le]
      refine and_congr_right fun hnonneg => ?_
      -- a word that is not negative is the same number without its sign
      have hword : x.toUInt64.toNat = x.toInt.toNat :=
        toNat_toUInt64_of_nonneg (c := .signed x) (congrArg some (Int.toNat_of_nonneg hnonneg).symm)
      rw [hword]
      omega
  | unsigned x =>
    cases h
    have hleast := kind.least_le_zero
    rw [isInRange]
    simp only [decide_eq_true_eq, UInt64.le_iff_toNat_le]
    omega
  | float | bool | str => cases h

end Constant

/-! ## 2. The two ways -/

section

variable {ignoreAny : Bool} {target : Ty} {v : Value}

/-- Where the range decides, nothing but the range can be wrong. -/
theorem assignProblem?_ranged {fits : Bool} (h : rangeVerdict? target v = some fits) :
    assignProblem? ignoreAny target v = if fits then none else some .overflow := by
  rw [assignProblem?, h]

/-- Where it does not, the types have to be compatible. -/
theorem assignProblem?_typed (h : rangeVerdict? target v = none) :
    assignProblem? ignoreAny target v =
      if Ty.compatible ignoreAny target v.type then none
      else some (.incompatibleType target.spelling v.type.spelling) := by
  rw [assignProblem?, h]

end

/-! ## 3. Integers -/

/-- A known integer goes into a variable of an integer type if and only if it is a value of
the type, and otherwise one problem is reported, that it is out of range. It does not matter
which integer type it has itself. -/
theorem checkAssign_integer (ignoreAny : Bool) {target : Ty} {kind : NumberKind}
    (htarget : target.numberKind? = some kind) (hkind : kind.isInteger) {v : Value}
    {own : NumberKind} {c : Constant} {n : Int} (hv : v.Known own c n) (htext : v.text ≠ "")
    (position : Position) :
    Runs (checkAssign ignoreAny target ⟨v, position, false⟩) ()
      (if kind.Holds n then [] else [⟨.overflow, position⟩]) := by
  have hinteger : v.type.isInteger = true := by
    rw [Ty.isInteger_of_numberKind hv.numberKind, hv.isInteger]
  have hverdict : rangeVerdict? target v = some (c.isInRange kind) := by
    simp [rangeVerdict?, htarget, hv.known?, hkind, hinteger, Constant.fits,
      NumberKind.isFloat_of_isInteger hkind]
  have hrun := Value.checkAssign_reports ignoreAny target htext position
  rw [assignProblem?_ranged hverdict] at hrun
  by_cases hholds : kind.Holds n
  · rw [if_pos ((Constant.isInRange_iff hv.integer).2 hholds)] at hrun
    rwa [if_pos hholds]
  · rw [if_neg fun h => hholds ((Constant.isInRange_iff hv.integer).1 h)] at hrun
    rwa [if_neg hholds]

/-- The least integer that no signed type has, under a type that does not have it either. -/
theorem checkAssign_integer_too_great :
    let target := Ty.number .i64
    let v := Value.ofConstant (Ty.number .i8) (.unsigned 9223372036854775808)
    target.numberKind? = some .i64 ∧ NumberKind.i64.isInteger ∧
      v.Known .i8 (.unsigned 9223372036854775808) 9223372036854775808 ∧ v.text ≠ "" ∧
      Runs (checkAssign true target ⟨v, .null, false⟩) () [⟨.overflow, .null⟩] := by
  intro target v
  have hv : v.Known .i8 (.unsigned 9223372036854775808) 9223372036854775808 :=
    ⟨rfl, rfl, rfl, rfl⟩
  have htext : v.text ≠ "" := by decide
  have htarget : target.numberKind? = some .i64 := rfl
  have hrun := checkAssign_integer true htarget rfl hv htext .null
  rw [if_neg (by decide)] at hrun
  exact ⟨rfl, rfl, hv, htext, hrun⟩

/-! ## 4. What is no number -/

namespace Ty

variable {target t : Ty} {kind : NumberKind}

/-- The name of a kind has none of the marks that spellings of pointers and containers begin
with. -/
theorem head?_spelling_number (htarget : target.numberKind? = some kind)
    (hname : target.NamedByKind) :
    target.spelling.toList.head? ≠ some '*' ∧ target.spelling.toList.head? ≠ some '[' := by
  rw [spelling_of_numberKind hname htarget]
  cases kind <;> decide

theorem head?_spelling_of_isPointer (h : t.isPointer) : t.spelling.toList.head? = some '*' := by
  obtain ⟨k, hk⟩ := Nat.exists_eq_succ_of_ne_zero (bne_iff_ne.1 h)
  simp [spelling, hk, List.replicate_succ]

/-- A type without pointers is spelled by its name. -/
theorem head?_spelling_of_nameBegins {c : Char} {cs : List Char} (hpointer : t.isPointer = false)
    (h : t.nameBegins (c :: cs)) : t.spelling.toList.head? = some c := by
  have hpointers : t.pointers = 0 := by simpa [isPointer] using hpointer
  obtain ⟨rest, hrest⟩ := List.isPrefixOf_iff_prefix.1 h
  simp [spelling, hpointers, ← hrest]

/-- Pointers, slices and maps go by their spelling: the type is one of these, and it is spelled
like the target. -/
def PassesFor (t target : Ty) : Prop :=
  (t.isPointer ∨ t.isSlice ∨ t.isMap) ∧ t.spelling = target.spelling

instance (t target : Ty) : Decidable (t.PassesFor target) :=
  inferInstanceAs (Decidable (_ ∧ _))

/-- Nothing passes for a number that has the name of its kind. -/
theorem not_passesFor_number (htarget : target.numberKind? = some kind)
    (hname : target.NamedByKind) : ¬t.PassesFor target := by
  obtain ⟨hstar, hbracket⟩ := head?_spelling_number htarget hname
  rintro ⟨h, heq⟩
  rw [← heq] at hstar hbracket
  rcases h with h | h | h
  · exact hstar (head?_spelling_of_isPointer h)
  · have hpointer := isPointer_of_bareCategory? (bareCategory?_of_isSlice h)
    exact hbracket (head?_spelling_of_nameBegins hpointer (Bool.and_eq_true_iff.1 h).2)
  · have hpointer := isPointer_of_bareCategory? (bareCategory?_of_isMap h)
    simp only [isMap, Bool.and_eq_true] at h
    exact hbracket (head?_spelling_of_nameBegins hpointer h.1.2)

/-- A pointer, slice or map meets a number by its spelling, because neither is `nil`. -/
theorem compatible_number_of_marked (htarget : target.numberKind? = some kind)
    (h : t.isPointer ∨ t.isSlice ∨ t.isMap) :
    compatible false target t = (target.spelling == t.spelling) := by
  have hbare := bareCategory?_of_numberKind htarget
  have hnil : target.isNil = false := isNil_eq_false hbare (by simp)
  have hpointer : target.isPointer = false := isPointer_of_bareCategory? hbare
  have hslice : target.isSlice = false := by simp [isSlice, hbare]
  have harray : target.isArray = false := by simp [isArray, hbare]
  have hboth : verdict? false target t = some (nilOrSame target t) ∧ t.isNil = false := by
    rcases h with h | h | h
    · exact ⟨verdict?_of_isPointer (by simp [h]), isNil_of_isPointer h⟩
    · have hpointer' := isPointer_of_bareCategory? (bareCategory?_of_isSlice h)
      exact ⟨verdict?_of_isSlice (by simp [hpointer, hpointer']) (by simp [h]), isNil_of_isSlice h⟩
    · have hbare' := bareCategory?_of_isMap h
      have hpointer' := isPointer_of_bareCategory? hbare'
      refine ⟨verdict?_of_isMap (by simp [hpointer, hpointer']) ?_ ?_ (by simp [h]),
        isNil_of_isMap h⟩
      · rw [hslice]
        simp [isSlice, hbare']
      · rw [harray]
        simp [isArray, hbare']
  obtain ⟨hverdict, hnil'⟩ := hboth
  rw [compatible_eq, hverdict, Option.getD_some, nilOrSame, hnil, hnil', Bool.false_or,
    Bool.false_or]

/-- Nothing else that is no number meets one. -/
theorem not_compatible_number (htarget : target.numberKind? = some kind)
    (ht : t.isNumeric = false) (hmarked : ¬(t.isPointer ∨ t.isSlice ∨ t.isMap)) :
    compatible false target t = false := by
  have hbare := bareCategory?_of_numberKind htarget
  rw [compatible_eq]
  have hd := decides_verdict? false target t
  generalize verdict? false target t = verdict at hd ⊢
  cases hd with
  | pointer h =>
    have h : t.isPointer := by simpa [isPointer_of_bareCategory? hbare] using h
    exact absurd (.inl h) hmarked
  | slice h =>
    have h : t.isSlice := by simpa [isSlice, hbare] using h
    exact absurd (.inr (.inl h)) hmarked
  | map h =>
    have h : t.isMap := by simpa [isMap, hbare] using h
    exact absurd (.inr (.inr h)) hmarked
  | array h => simp [sameCount, isArray, hbare]
  | trait h =>
    have h : t.isTrait := by simpa [isTrait, hbare] using h
    rw [Option.getD_some, if_pos h]
    unfold meetsTrait
    split <;> simp [isTrait, isStruct, hbare]
  | nilLeft h => simp [isNil, isFunc, hbare] at h
  | nilRight h => simp [isNil, hbare]
  | enum h =>
    have h : t.bareCategory? = some .enum := by simpa [isEnum, hbare] using h
    simp [category_of_bareCategory? hbare, category_of_bareCategory? h]
  | struct h =>
    rw [Option.getD_some]
    unfold meetsStruct
    split <;> simp [isStruct, hbare]
  | any _ _ h => simp [isAny, hbare]
  | number _ hb => simp [isNumeric, numberKind?, hb, Category.number?] at ht
  | same hc ha => simp [← Option.some.inj (hbare.symm.trans ha)] at hc
  | generic ha | tuple ha => cases hbare.symm.trans ha
  | apart => rfl

/-- What is no number meets one only if it passes for it. -/
theorem compatible_number (htarget : target.numberKind? = some kind) (ht : t.isNumeric = false) :
    compatible false target t = decide (t.PassesFor target) := by
  by_cases hmarked : t.isPointer ∨ t.isSlice ∨ t.isMap
  · have hspelled : t.PassesFor target ↔ target.spelling = t.spelling :=
      (and_iff_right hmarked).trans eq_comm
    rw [compatible_number_of_marked htarget hmarked, Bool.beq_eq_decide_eq]
    exact decide_eq_decide.2 hspelled.symm
  · rw [not_compatible_number htarget ht hmarked]
    exact (decide_eq_false fun h => hmarked h.1).symm

/-- Of the types that are no numbers, enums alone take constants that are. -/
theorem isEnum_of_admits {c : Constant} (ht : t.isNumeric = false) (hpure : t.isPure)
    (hc : t.Admits c) (hnumeric : c.isNumeric) : t.isEnum := by
  cases henum : t.isEnum with
  | true => rfl
  | false =>
    rw [Admits, stored_of_not_isEnum henum] at hc
    have hadmits := hc hpure
    have hpointer : t.isPointer = false := by
      cases hp : t.isPointer with
      | false => rfl
      | true => simp [isPure, bareCategory?, hp] at hpure
    -- the form of the constant leaves a number for the category
    cases hcategory : t.category with
    | number kind =>
      have hkind := numberKind?_eq_some.2 ⟨hpointer, hcategory⟩
      simp [isNumeric, hkind] at ht
    | _ => cases c <;> simp_all [Category.Admits, Constant.isNumeric]

end Ty

theorem Value.known?_of_isEnum {v : Value} (h : v.type.isEnum) : v.known? = v.const := by
  have hpure : v.type.isPure := by
    rw [Ty.isPure, beq_iff_eq.1 h]
  rw [Value.known?, if_pos hpure]

section

variable {target : Ty} {kind : NumberKind} {v : Value}

/-- The range of a float decides about a number that an enum stands for. -/
theorem rangeVerdict?_of_isEnum (htarget : target.numberKind? = some kind) (hkind : kind.isFloat)
    (hv : v.type.isEnum) {c : Constant} (hc : v.const = some c) (hnumeric : c.isNumeric) :
    rangeVerdict? target v = some (c.fits kind) := by
  simp [rangeVerdict?, htarget, Value.known?_of_isEnum hv, hc, hkind, hnumeric]

/-- No range decides about other values that are no numbers. -/
theorem rangeVerdict?_of_not_isNumeric (htarget : target.numberKind? = some kind)
    (hv : v.type.isNumeric = false) (hconst : ∀ c, v.const = some c → v.type.Admits c)
    (h : ¬(kind.isFloat ∧ v.type.isEnum ∧ v.const.any Constant.isNumeric)) :
    rangeVerdict? target v = none := by
  unfold rangeVerdict?
  rw [htarget]
  cases hknown : v.known? with
  | none => rfl
  | some c =>
    obtain ⟨hpure, hc⟩ : v.type.isPure ∧ v.const = some c := by
      simpa [Value.known?] using hknown
    have hinteger : v.type.isInteger = false := by
      simp_all [Ty.isNumeric, Ty.isInteger]
    have hfloat : ¬(kind.isFloat ∧ c.isNumeric) := by
      rintro ⟨hfloat, hnumeric⟩
      have henum := Ty.isEnum_of_admits hv hpure (hconst c hc) hnumeric
      exact h ⟨hfloat, henum, by simp [hc, hnumeric]⟩
    simpa [hinteger] using hfloat

/-- What is no number does not go into a variable of a numeric type, and one problem is
reported, that the types do not go together. There are two exceptions. An enum that stands for
a known number and is to go into a float has its range checked, as any number has. And a
pointer, slice or map goes where it is spelled alike, but no number is spelled so that has the
name of its kind. -/
theorem checkAssign_other (htarget : target.numberKind? = some kind) (htext : v.text ≠ "")
    (hv : v.type.isNumeric = false) (hconst : ∀ c, v.const = some c → v.type.Admits c)
    (position : Position) :
    (¬(kind.isFloat ∧ v.type.isEnum ∧ v.const.any Constant.isNumeric) →
        Runs (checkAssign false target ⟨v, position, false⟩) ()
          (if v.type.PassesFor target then []
            else [⟨.incompatibleType target.spelling v.type.spelling, position⟩])) ∧
      (target.NamedByKind → ¬v.type.PassesFor target) ∧
      ∀ c, kind.isFloat → v.type.isEnum → v.const = some c → c.isNumeric →
        Runs (checkAssign false target ⟨v, position, false⟩) ()
          (if c.fits kind then [] else [⟨.overflow, position⟩]) := by
  have hrun := Value.checkAssign_reports false target htext position
  refine ⟨fun h => ?_, Ty.not_passesFor_number htarget, fun c hfloat henum hc hnumeric => ?_⟩
  · have hverdict := rangeVerdict?_of_not_isNumeric htarget hv hconst h
    rw [assignProblem?_typed hverdict, Ty.compatible_number htarget hv] at hrun
    by_cases hpasses : v.type.PassesFor target
    · rw [decide_eq_true hpasses] at hrun
      rwa [if_pos hpasses]
    · rw [decide_eq_false hpasses] at hrun
      rwa [if_neg hpasses]
  · have hverdict := rangeVerdict?_of_isEnum htarget hfloat henum hc hnumeric
    rw [assignProblem?_ranged hverdict] at hrun
    cases hfits : c.fits kind <;> rwa [hfits] at hrun

end

/-- An enum that is stored in an integer type takes integers. -/
theorem Ty.admits_enumOf {decl : EnumDef Ty} {kind : NumberKind} {c : Constant}
    (hstorage : decl.storage.numberKind? = some kind) (hkind : kind.isInteger)
    (hc : c.integer?.isSome) : (enumOf decl).Admits c := by
  have hstored : (enumOf decl).stored = decl.storage := by
    rw [stored_of_storage (s := decl.storage) rfl, stored_of_numberKind hstorage]
  rintro -
  rw [hstored, (numberKind?_eq_some.1 hstorage).2]
  exact (Category.admits_integer hkind).2 hc

/-- An item of an enum does not go into a variable of an integer type, not even of the one
that it is stored in. -/
theorem checkAssign_other_integer :
    let color := Ty.enumOf ⟨"Color", "c", Ty.number .i32, ["Red"]⟩
    let target := Ty.number .i32
    let v := Value.ofConstant color (.signed 1)
    target.numberKind? = some .i32 ∧ v.text ≠ "" ∧ v.type.isNumeric = false ∧
      (∀ c, v.const = some c → v.type.Admits c) ∧
      ¬(NumberKind.i32.isFloat ∧ v.type.isEnum ∧ v.const.any Constant.isNumeric) ∧
      Runs (checkAssign false target ⟨v, .null, false⟩) ()
        [⟨.incompatibleType "i32" "Color", .null⟩] := by
  intro color target v
  have hname : target.NamedByKind := by
    rintro _ ⟨⟩
    rfl
  have htext : v.text ≠ "" := by decide
  have hconst : ∀ c, v.const = some c → v.type.Admits c := by
    rintro _ ⟨⟩
    exact Ty.admits_enumOf (Ty.numberKind?_number .i32) rfl rfl
  have hother : ¬(NumberKind.i32.isFloat ∧ v.type.isEnum ∧ v.const.any Constant.isNumeric) := by
    decide
  have htarget : target.numberKind? = some .i32 := rfl
  obtain ⟨hreported, hnamed, -⟩ := checkAssign_other htarget htext rfl hconst .null
  have hrun := hreported hother
  rw [if_neg (hnamed hname)] at hrun
  exact ⟨rfl, htext, rfl, hconst, hother, hrun⟩

/-- It goes into a variable of a float type without a report. -/
theorem enum_into_float :
    let color := Ty.enumOf ⟨"Color", "c", Ty.number .i32, ["Red"]⟩
    let target := Ty.number .f64
    let v := Value.ofConstant color (.signed 1)
    target.isFloat ∧ v.text ≠ "" ∧ v.type.isNumeric = false ∧
      (∀ c, v.const = some c → v.type.Admits c) ∧
      Silent (checkAssign false target ⟨v, .null, false⟩) () := by
  intro color target v
  have htext : v.text ≠ "" := by decide
  have hconst : ∀ c, v.const = some c → v.type.Admits c := by
    rintro _ ⟨⟩
    exact Ty.admits_enumOf (Ty.numberKind?_number .i32) rfl rfl
  have hfits : (Constant.signed 1).fits .f64 := by decide +kernel
  have hrun := Value.checkAssign_reports false target htext .null
  rw [assignProblem?_ranged (rangeVerdict?_of_isEnum rfl rfl rfl rfl rfl), if_pos hfits] at hrun
  exact ⟨rfl, htext, rfl, hconst, hrun⟩

end ExprCheck
