/-
ExprCheck.Proofs.Agreement — compatibility of types that need no declaration.

Pointers, slices and maps are compared by how they are spelled, arrays by their count and
tuples component by component, each by a rule of its own and in a fixed order. Of types
that were read from a spelling none of that shows: they are compatible if and only if
they agree, and `Agrees` speaks of the parts of types alone.

One half rests on `ExprCheck.Proofs.RoundTrip`: two such types of one spelling are the
same. For the other half types that agree are taken through the rules, and the order of
the rules matters only in that a pointer, a slice or a map is never something else too.
-/
import ExprCheck.Proofs.Compatible
import ExprCheck.Proofs.RoundTrip

namespace ExprCheck

/-- Types of the category are declared, or stand for one that is given later. -/
def Category.isDeclared : Category → Bool
  | .struct | .trait | .enum | .func | .generic => true
  | _ => false

namespace Ty

variable {ignoreAny : Bool} {a b t : Ty}

/-! ## 1. Agreement -/

/-- The pointers, slices and maps. -/
inductive Nilable : Ty → Prop
  | pointer {t : Ty} (h : t.pointers ≠ 0) : Nilable t
  | slice (element : Ty) : Nilable (sliceOf element)
  | map (key value : Ty) : Nilable (mapOf key value)

/-- The types that meet `any` where that is allowed for. -/
inductive MeetsAny : Ty → Prop
  | number (kind : NumberKind) : MeetsAny (number kind)
  | bool : MeetsAny bool
  | str : MeetsAny str
  | void : MeetsAny void
  | any : MeetsAny any
  | tuple (components : List Ty) : MeetsAny (tupleOf components)

/-- The types agree: they are the same, or one is `nil` or `any` where that will do, or they
are arrays of one size or tuples of types that agree. -/
inductive Agrees (ignoreAny : Bool) : Ty → Ty → Prop
  | refl (t : Ty) : Agrees ignoreAny t t
  | nilLeft {t : Ty} (h : Nilable t) : Agrees ignoreAny nil t
  | nilRight {t : Ty} (h : Nilable t) : Agrees ignoreAny t nil
  | array {element element' : Ty} {size : ArraySize} (h : size = .auto ∨ ∃ n, size = .fixed n) :
      Agrees ignoreAny (arrayOf element size) (arrayOf element' size)
  | tuple {as bs : List Ty} (hlength : as.length = bs.length)
      (h : ∀ p ∈ as.zip bs, Agrees ignoreAny p.1 p.2) : Agrees ignoreAny (tupleOf as) (tupleOf bs)
  | anyLeft {t : Ty} (hany : ignoreAny) (h : MeetsAny t) : Agrees ignoreAny any t
  | anyRight {t : Ty} (hany : ignoreAny) (h : MeetsAny t) : Agrees ignoreAny t any

/-! ## 2. The sorts of readable types -/

/-- The readable types without pointers. -/
inductive Bare : Ty → Prop
  | number (kind : NumberKind) : Bare (number kind)
  | bool : Bare bool
  | str : Bare str
  | nil : Bare nil
  | any : Bare any
  | void : Bare void
  | slice (element : Ty) : Bare (sliceOf element)
  | array {element : Ty} {size : ArraySize} (hs : size.Readable) : Bare (arrayOf element size)
  | map (key value : Ty) : Bare (mapOf key value)
  | tuple {components : List Ty} (h : ∀ c ∈ components, Readable c) : Bare (tupleOf components)

theorem Readable.bare (h : Readable t) (hp : t.isPointer = false) : Bare t := by
  induction h with
  | number kind => exact .number kind
  | bool => exact .bool
  | str => exact .str
  | nil => exact .nil
  | any => exact .any
  | void => exact .void
  | slice => exact .slice _
  | array _ hs => exact .array hs
  | map => exact .map _ _
  | tuple _ h => exact .tuple h
  | pointers _ count ih =>
    cases count with
    | zero =>
      rw [addPointers_zero] at hp ⊢
      exact ih hp
    | succ n => simp [isPointer, addPointers] at hp

theorem Readable.bare_of (h : Readable t) {c : Category} (hc : t.bareCategory? = some c) : Bare t :=
  h.bare (isPointer_of_bareCategory? hc)

theorem Readable.eq_nil (h : Readable t) (hn : t.isNil) : t = Ty.nil := by
  cases h.bare_of (c := .nil) (by simpa [isNil] using hn) <;> first | rfl | cases hn

theorem Readable.eq_any (h : Readable t) (hn : t.isAny) : t = Ty.any := by
  cases h.bare_of (c := .any) (by simpa [isAny] using hn) <;> first | rfl | cases hn

theorem Readable.eq_of_spelling (ha : Readable a) (hb : Readable b) (h : a.spelling = b.spelling) :
    a = b := by
  have hread := ha.read?_spelling
  rw [h, hb.read?_spelling] at hread
  exact (Option.some.inj hread).symm

theorem Readable.component (h : Readable t) {cs : List Ty} (hcs : t.components? = some cs) :
    ∀ c ∈ cs, Readable c := by
  induction h with
  | tuple _ h =>
    cases hcs
    exact h
  | pointers _ _ ih => exact ih hcs
  | _ => cases hcs

/-- The name of an array does not begin like that of a slice. -/
theorem isArray_arrayOf {element : Ty} {size : ArraySize} (hs : size.Readable) :
    (arrayOf element size).isArray := by
  have hname : (arrayOf element size).name.toList =
      '[' :: (size.text.toList ++ ']' :: element.spelling.toList) := by
    rw [← toList_spelling_arrayOf, toList_spelling]
    rfl
  have hhead := head?_text_append hs (']' :: element.spelling.toList)
  rw [isArray, bareCategory?_arrayOf, nameBegins, nameBegins, hname]
  generalize size.text.toList ++ ']' :: element.spelling.toList = cs at hhead
  cases cs with
  | nil => rfl
  | cons c cs =>
    have hc : (']' == c) = false := beq_false_of_ne fun h => hhead (h ▸ rfl)
    simp [List.isPrefixOf, hc]

theorem Readable.size (h : Readable t) {size : ArraySize} (hs : t.size = some size) :
    size.Readable := by
  induction h with
  | array _ hsize =>
    cases hs
    exact hsize
  | pointers _ _ ih => exact ih hs
  | _ => cases hs

/-! ## 3. Compatible types agree -/

/-- Of two types one of which is a pointer, say, the other is `nil` or the same. -/
theorem agrees_of_nilOrSame {applies : Ty → Bool} (ha : Readable a) (hb : Readable b)
    (h : nilOrSame a b) (hor : applies a ∨ applies b)
    (hnil : ∀ {t}, applies t → t.isNil = false)
    (hnilable : ∀ {t}, Readable t → applies t → Nilable t) : Agrees ignoreAny a b := by
  simp only [nilOrSame, Bool.or_eq_true, beq_iff_eq] at h
  rcases h with (h | h) | h
  · have happ : applies b := hor.resolve_left fun happ => by simp [hnil happ] at h
    rw [ha.eq_nil h]
    exact .nilLeft (hnilable hb happ)
  · have happ : applies a := hor.resolve_right fun happ => by simp [hnil happ] at h
    rw [hb.eq_nil h]
    exact .nilRight (hnilable ha happ)
  · rw [ha.eq_of_spelling hb h]
    exact .refl b

theorem Readable.not_isDeclared (h : Readable t) {c : Category} (hc : t.bareCategory? = some c) :
    ¬c.isDeclared := by
  cases h.bare_of hc <;> cases hc <;> exact Bool.false_ne_true

theorem nilable_of_isPointer (h : t.isPointer) : Nilable t :=
  .pointer (by simpa [isPointer] using h)

theorem Readable.nilable_of_isSlice (h : Readable t) (hs : t.isSlice) : Nilable t := by
  have hc := bareCategory?_of_isSlice hs
  cases h.bare_of hc with
  | slice element => exact .slice element
  | _ => cases hc

theorem Readable.nilable_of_isMap (h : Readable t) (hm : t.isMap) : Nilable t := by
  have hc := bareCategory?_of_isMap hm
  cases h.bare_of hc with
  | map key value => exact .map key value
  | _ => cases hc

theorem agrees_of_sameCount (ha : Readable a) (hb : Readable b) (h : sameCount a b) :
    Agrees ignoreAny a b := by
  simp only [sameCount, Bool.and_eq_true, beq_iff_eq] at h
  obtain ⟨⟨haa, hba⟩, hcount⟩ := h
  have hca := bareCategory?_of_isArray haa
  have hcb := bareCategory?_of_isArray hba
  cases ha.bare_of hca with
  | @array element size hs =>
    cases hb.bare_of hcb with
    | @array element' size' hs' =>
      replace hcount : size.count? = size'.count? := hcount
      cases size with
      | fixed n =>
        cases size' with
        | fixed n' =>
          cases hcount
          exact .array (.inr ⟨n, rfl⟩)
        | auto => cases hcount
        | deferred => exact hs'.elim
      | auto =>
        cases size' with
        | fixed n' => cases hcount
        | auto => exact .array (.inl rfl)
        | deferred => exact hs'.elim
      | deferred => exact hs.elim
    | _ => cases hcb
  | _ => cases hca

/-- What is readable and no pointer, container or `nil` meets `any`. -/
theorem Readable.meetsAny (h : Readable t) (hd : t.Direct) : MeetsAny t := by
  obtain ⟨hn, harray⟩ := hd
  have hp : t.isPointer = false := by
    simp only [admitsNil, Bool.or_eq_false_iff] at hn
    exact hn.1.1.1.2
  cases h.bare hp with
  | number kind => exact .number kind
  | bool => exact .bool
  | str => exact .str
  | nil => cases hn
  | any => exact .any
  | void => exact .void
  | slice element => simp [admitsNil, isSlice_sliceOf] at hn
  | array hs => rw [isArray_arrayOf hs] at harray; cases harray
  | map key value => simp [admitsNil, isMap_mapOf] at hn
  | tuple => exact .tuple _

/-- Readable types of a basic category are the same if the category is. -/
theorem Readable.eq_of_basic (ha : Readable a) (hb : Readable b) {c : Category}
    (hc : (∃ kind, c = .number kind) ∨ c = .bool ∨ c = .str ∨ c = .void)
    (hca : a.bareCategory? = some c) (hcb : b.bareCategory? = some c) : a = b := by
  rcases hc with ⟨kind, rfl⟩ | rfl | rfl | rfl <;>
    cases ha.bare_of hca <;> cases hca <;> cases hb.bare_of hcb <;> cases hcb <;> rfl

theorem agrees_of_decides (ha : Readable a) (hb : Readable b) {v : Option Bool}
    (hd : Decides ignoreAny a b v) (hv : v = some true) : Agrees ignoreAny a b := by
  have not_func {t : Ty} (ht : Readable t) : ¬t.isFunc := fun h =>
    ht.not_isDeclared (bareCategory?_of_isFunc h) rfl
  cases hd with
  | pointer h =>
    exact agrees_of_nilOrSame ha hb (Option.some.inj hv) h isNil_of_isPointer
      fun _ => nilable_of_isPointer
  | slice h =>
    exact agrees_of_nilOrSame ha hb (Option.some.inj hv) h isNil_of_isSlice
      Readable.nilable_of_isSlice
  | array => exact agrees_of_sameCount ha hb (Option.some.inj hv)
  | map h =>
    exact agrees_of_nilOrSame ha hb (Option.some.inj hv) h isNil_of_isMap
      Readable.nilable_of_isMap
  | trait h | enum h | struct h =>
    rcases h with h | h
    · exact absurd rfl (ha.not_isDeclared (eq_of_beq h))
    · exact absurd rfl (hb.not_isDeclared (eq_of_beq h))
  | nilLeft h =>
    rw [ha.eq_nil (h.resolve_right (not_func ha)), hb.eq_nil (Option.some.inj hv)]
    exact .refl nil
  | nilRight h =>
    rw [hb.eq_nil (h.resolve_right (not_func hb)), ha.eq_nil (Option.some.inj hv)]
    exact .refl nil
  | any hda hdb h =>
    simp only [Option.some.injEq, Bool.or_eq_true, Bool.and_eq_true] at hv
    rcases hv with hany | ⟨hea, heb⟩
    · rcases h with h | h
      · rw [ha.eq_any h]
        exact .anyLeft hany (hb.meetsAny hdb)
      · rw [hb.eq_any h]
        exact .anyRight hany (ha.meetsAny hda)
    · rw [ha.eq_any hea, hb.eq_any heb]
      exact .refl any
  | number hca hcb =>
    have hk := of_decide_eq_true (Option.some.inj hv)
    subst hk
    rw [ha.eq_of_basic hb (.inl ⟨_, rfl⟩) hca hcb]
    exact .refl b
  | same hc hca hcb =>
    rw [ha.eq_of_basic hb (.inr hc) hca hcb]
    exact .refl b
  | generic hca => exact absurd rfl (ha.not_isDeclared hca)
  | tuple => cases hv
  | apart => cases hv

theorem Readable.eq_tupleOf (h : Readable t) (hc : t.bareCategory? = some .tuple) :
    ∃ cs, t = tupleOf cs := by
  cases h.bare_of hc with
  | tuple => exact ⟨_, rfl⟩
  | _ => cases hc

theorem compatibleAll_iff {as bs : List Ty} : compatibleAll ignoreAny as bs ↔
    as.length = bs.length ∧ ∀ p ∈ as.zip bs, compatible ignoreAny p.1 p.2 := by
  simp [compatibleAll_eq]

/-- Compatible types agree. -/
theorem agrees_of_compatible (ha : Readable a) (hb : Readable b)
    (h : compatible ignoreAny a b) : Agrees ignoreAny a b := by
  induction a using induction_on_components generalizing b with
  | h a ih =>
    have hd := decides_verdict? ignoreAny a b
    rw [compatible_eq] at h
    cases hv : verdict? ignoreAny a b with
    | some v =>
      rw [hv, Option.getD_some] at h
      exact agrees_of_decides ha hb hd (by rw [hv, h])
    | none =>
      rw [hv] at hd h
      cases hd with
      | tuple hca hcb =>
        obtain ⟨as, rfl⟩ := ha.eq_tupleOf hca
        obtain ⟨bs, rfl⟩ := hb.eq_tupleOf hcb
        obtain ⟨hlength, hall⟩ := compatibleAll_iff.1 h
        refine .tuple hlength fun p hp => ?_
        have hmem := List.of_mem_zip hp
        exact ih as rfl p.1 hmem.1 (ha.component rfl p.1 hmem.1) (hb.component rfl p.2 hmem.2)
          (hall p hp)


/-! ## 4. Types that agree are compatible -/

theorem compatible_of_verdict? (h : verdict? ignoreAny a b = some true) :
    compatible ignoreAny a b := by
  rw [compatible_eq, h, Option.getD_some]

/-- Pointers, slices and maps meet `nil`, on either side, and themselves. -/
theorem compatible_of_nilable (hn : Nilable t)
    (h : (a = nil ∧ b = t) ∨ (a = t ∧ b = nil) ∨ (a = t ∧ b = t)) :
    compatible ignoreAny a b := by
  have hsame : nilOrSame a b := by
    have hnil : nil.isNil := rfl
    rcases h with ⟨rfl, rfl⟩ | ⟨rfl, rfl⟩ | ⟨rfl, rfl⟩ <;> simp [nilOrSame, hnil]
  have neither {p : Ty → Bool} (hnil : p nil = false) (ht : p t = false) : ¬(p a || p b) := by
    rcases h with ⟨rfl, rfl⟩ | ⟨rfl, rfl⟩ | ⟨rfl, rfl⟩ <;> simp [hnil, ht]
  have either {p : Ty → Bool} (ht : p t) : p a || p b := by
    rcases h with ⟨-, rfl⟩ | ⟨rfl, -⟩ | ⟨rfl, -⟩ <;> simp [ht]
  refine compatible_of_verdict? (Eq.trans ?_ (congrArg some hsame))
  cases hn with
  | pointer hp => exact verdict?_of_isPointer (either (by simpa [isPointer] using hp))
  | slice => exact verdict?_of_isSlice (neither rfl rfl) (either (isSlice_sliceOf _))
  | map =>
    exact verdict?_of_isMap (neither rfl rfl) (neither rfl rfl) (neither rfl rfl)
      (either (isMap_mapOf _ _))

theorem compatible_arrays {element element' : Ty} {size : ArraySize} (hs : size.Readable) :
    compatible ignoreAny (arrayOf element size) (arrayOf element' size) := by
  have ha : (arrayOf element size).isArray := isArray_arrayOf hs
  have hb : (arrayOf element' size).isArray := isArray_arrayOf hs
  rw [compatible_of_array rfl rfl, sameCount, ha, hb]
  exact beq_self_eq_true _

theorem compatible_tuples {as bs : List Ty} (hlength : as.length = bs.length)
    (h : ∀ p ∈ as.zip bs, compatible ignoreAny p.1 p.2) :
    compatible ignoreAny (tupleOf as) (tupleOf bs) := by
  rw [compatible_eq]
  exact compatibleAll_iff.2 ⟨hlength, h⟩

theorem compatibleAll_self {ts : List Ty} (h : ∀ t ∈ ts, compatible ignoreAny t t) :
    compatibleAll ignoreAny ts ts := by
  induction ts with
  | nil => rfl
  | cons t ts ih =>
    rw [compatibleAll, h t (List.mem_cons_self ..), Bool.true_and]
    exact ih fun t ht => h t (List.mem_cons_of_mem _ ht)

theorem compatible_any (h : MeetsAny t) : compatible true any t ∧ compatible true t any := by
  cases h <;> exact ⟨rfl, rfl⟩

/-- Readable types are compatible with themselves. -/
theorem Readable.compatible_self (h : Readable t) : compatible ignoreAny t t := by
  induction h with
  | number kind => cases kind <;> rfl
  | bool | str | nil | void => rfl
  | any => cases ignoreAny <;> rfl
  | slice => exact compatible_of_nilable (.slice _) (.inr (.inr ⟨rfl, rfl⟩))
  | array _ hs => exact compatible_arrays hs
  | map => exact compatible_of_nilable (.map _ _) (.inr (.inr ⟨rfl, rfl⟩))
  | tuple _ _ ih =>
    rw [compatible_eq]
    exact compatibleAll_self ih
  | @pointers t _ count ih =>
    cases count with
    | zero => rwa [addPointers_zero]
    | succ n =>
      exact compatible_of_nilable (.pointer (Nat.succ_ne_zero _)) (.inr (.inr ⟨rfl, rfl⟩))

theorem compatible_of_agrees (h : Agrees ignoreAny a b) (ha : Readable a) (hb : Readable b) :
    compatible ignoreAny a b := by
  induction h with
  | refl t => exact ha.compatible_self
  | nilLeft hn => exact compatible_of_nilable hn (.inl ⟨rfl, rfl⟩)
  | nilRight hn => exact compatible_of_nilable hn (.inr (.inl ⟨rfl, rfl⟩))
  | array => exact compatible_arrays (ha.size rfl)
  | tuple hlength _ ih =>
    refine compatible_tuples hlength fun p hp => ?_
    have hmem := List.of_mem_zip hp
    exact ih p hp (ha.component rfl p.1 hmem.1) (hb.component rfl p.2 hmem.2)
  | anyLeft hany h =>
    subst hany
    exact (compatible_any h).1
  | anyRight hany h =>
    subst hany
    exact (compatible_any h).2

/-- Types that were read, each from a spelling of its own, are compatible if and only if
they agree. -/
theorem compatible_iff_agrees {s s' : String} (ha : ofSpelling? s = some a)
    (hb : ofSpelling? s' = some b) (ignoreAny : Bool) :
    compatible ignoreAny a b ↔ Agrees ignoreAny a b := by
  have ha := readable_of_read? ha
  have hb := readable_of_read? hb
  exact ⟨agrees_of_compatible ha hb, fun h => compatible_of_agrees h ha hb⟩

/-- Tuples that agree by the size of arrays and by `nil`. -/
theorem compatible_iff_agrees_tuple :
    let a := tupleOf [arrayOf (number .i32) (.fixed 2), sliceOf str]
    let b := tupleOf [arrayOf str (.fixed 2), nil]
    ofSpelling? "([2]i32,[]str)" = some a ∧ ofSpelling? "([2]str,nil)" = some b ∧
      (compatible false a b ↔ Agrees false a b) := by
  intro a b
  have hsize : (ArraySize.fixed 2).Readable := show 2 < Nat.pow 2 64 by decide
  have ha : Readable a := .tuple nofun (by
    simp [Readable.array (Readable.number .i32) hsize, Readable.slice Readable.str])
  have hb : Readable b := .tuple nofun (by
    simp [Readable.array Readable.str hsize, Readable.nil])
  have hreada : ofSpelling? "([2]i32,[]str)" = some a := ha.read?_spelling
  have hreadb : ofSpelling? "([2]str,nil)" = some b := hb.read?_spelling
  exact ⟨hreada, hreadb, compatible_iff_agrees hreada hreadb false⟩

end Ty

end ExprCheck
