/-
ExprCheck.Proofs.Symmetry — compatibility from both sides.

Each rule of compatibility that applies to either type says the same from both sides,
but for the rule for what admits `nil`: it asks of the first type whether it is `nil` or a
function, and then whether the second is `nil`. So a function meets `nil`, and `nil` does
not meet a function. Apart from that the order of the types does not matter, in
components of tuples either (`compatible_comm_unless_nil_func`), as long as declarations
are told apart by name and file.

`Composed` is what the functions of `ExprCheck.Ty.Spelling` put together.
-/
import ExprCheck.Proofs.Compatible
import Mathlib.Data.List.Zip

namespace ExprCheck.Ty

variable {ignoreAny : Bool} {a b t : Ty}

/-! ## 1. Rules from both sides -/

/-- A rule that says the same of two types that it applies to from both sides judges any
two types the same from both sides. -/
theorem judge_comm {rule : Ty → Ty → Bool} {applies : Ty → Bool} (h : applies b || applies a)
    (hboth : applies a → applies b → rule a b = rule b a) :
    (if applies b then rule b a else rule a b) = if applies a then rule a b else rule b a := by
  by_cases ha : applies a
  · by_cases hb : applies b
    · rw [if_pos ha, if_pos hb, hboth ha hb]
    · rw [if_pos ha, if_neg hb]
  · have hb : applies b := by simpa [ha] using h
    rw [if_neg ha, if_pos hb]

theorem meetsTrait_comm (ha : a.isTrait) (hb : b.isTrait) : meetsTrait a b = meetsTrait b a := by
  have not_struct : ∀ {t : Ty}, t.isTrait → t.isStruct = false := by
    intro t ht
    have ht : t.bareCategory? = some .trait := by simpa [isTrait] using ht
    simp [isStruct, ht]
  unfold meetsTrait
  cases a.payload <;> cases b.payload <;>
    first | rfl | simp only [ha, hb, not_struct ha, not_struct hb, Bool.false_and, Bool.beq_comm]

/-- If the types are structs of one name in one file, their declarations have the same
placeholders. -/
def AgreeOnGenerics (a b : Ty) : Prop :=
  ∀ d as e bs, a.payload = .struct d as → b.payload = .struct e bs → d.sameAs e →
    d.generics = e.generics

theorem sameAs_comm (d e : StructDef Ty) : d.sameAs e = e.sameAs d := by
  rw [StructDef.sameAs, StructDef.sameAs, Bool.beq_comm, Bool.beq_comm (a := d.file)]

theorem looksLike_comm (a b : Ty) : looksLike a b = looksLike b a := by
  simp only [looksLike, eq_comm]

theorem all_zip_comm {α : Type} {f : α → α → Bool} (hf : ∀ x y, f x y = f y x) (xs ys : List α) :
    ((xs.zip ys).all fun (x, y) => f x y) = (ys.zip xs).all fun (x, y) => f x y := by
  rw [← List.zip_swap ys xs, List.all_map]
  congr 1
  funext p
  exact hf _ _

theorem meetsStruct_comm (h : AgreeOnGenerics a b) : meetsStruct a b = meetsStruct b a := by
  unfold meetsStruct
  cases hp : a.payload with
  | struct d as =>
    cases hq : b.payload with
    | struct e bs =>
      dsimp only
      cases hsame : d.sameAs e with
      | false => simp [sameAs_comm e, hsame]
      | true =>
        rw [sameAs_comm e, hsame, h d as e bs hp hq hsame, Bool.and_comm a.isStruct,
          Bool.beq_comm, all_zip_comm looksLike_comm]
    | _ => rfl
  | _ => cases b.payload <;> rfl

/-- The rules say the same from both sides, unless one type is `nil` and the other a
function. -/
theorem verdict?_comm (hstruct : AgreeOnGenerics a b) (hnf : ¬(a.isNil ∧ b.isFunc))
    (hfn : ¬(a.isFunc ∧ b.isNil)) : verdict? ignoreAny a b = verdict? ignoreAny b a := by
  have swap {p q : Bool} : ((p || q) = true) = ((q || p) = true) := by rw [Bool.or_comm]
  have none {p q : Bool} (h : ¬(p || q)) : ¬(q || p) := swap ▸ h
  by_cases hpointer : a.isPointer || b.isPointer
  · rw [verdict?_of_isPointer hpointer, verdict?_of_isPointer (swap.mp hpointer), nilOrSame_comm]
  by_cases hslice : a.isSlice || b.isSlice
  · rw [verdict?_of_isSlice hpointer hslice,
      verdict?_of_isSlice (none hpointer) (swap.mp hslice), nilOrSame_comm]
  by_cases harray : a.isArray || b.isArray
  · rw [verdict?_of_isArray hpointer hslice harray,
      verdict?_of_isArray (none hpointer) (none hslice) (swap.mp harray), sameCount_comm]
  by_cases hmap : a.isMap || b.isMap
  · rw [verdict?_of_isMap hpointer hslice harray hmap,
      verdict?_of_isMap (none hpointer) (none hslice) (none harray) (swap.mp hmap),
      nilOrSame_comm]
  rw [verdict?, if_neg hpointer, if_neg hslice, if_neg harray, if_neg hmap]
  rw [verdict?, if_neg (none hpointer), if_neg (none hslice), if_neg (none harray),
    if_neg (none hmap)]
  refine ite_congr swap (fun h => congrArg some (judge_comm h meetsTrait_comm)) fun htrait => ?_
  simp only [Bool.or_eq_true, not_or, Bool.not_eq_true] at hpointer hslice hmap htrait
  by_cases ha : a.admitsNil
  · by_cases hb : b.admitsNil
    · -- the first of the two decides, and says whether the other is `nil`
      rw [if_pos ha, if_pos hb]
      have ha := isNil_or_isFunc ha hpointer.1 hslice.1 hmap.1 htrait.2
      have hb := isNil_or_isFunc hb hpointer.2 hslice.2 hmap.2 htrait.1
      rcases ha with ha | ha <;> rcases hb with hb | hb
      · rw [ha, hb]
      · exact absurd ⟨ha, hb⟩ hnf
      · exact absurd ⟨ha, hb⟩ hfn
      · rw [isNil_of_isFunc ha, isNil_of_isFunc hb]
    · rw [if_pos ha, if_neg hb, if_pos ha]
  by_cases hb : b.admitsNil
  · rw [if_pos hb, if_neg ha, if_pos hb]
  rw [if_neg ha, if_neg hb, if_neg hb, if_neg ha]
  refine ite_congr swap (fun _ => ?enum) fun _ => ?_
  case enum => exact congrArg some (decide_eq_decide.2 (and_congr eq_comm eq_comm))
  refine ite_congr swap (fun _ => congrArg some (meetsStruct_comm hstruct)) fun _ => ?_
  refine ite_congr swap (fun _ => by rw [Bool.and_comm]) fun _ => ?_
  cases a.category <;> cases b.category <;> first | rfl | simp only [eq_comm]

/-! ## 2. Types put together -/

/-- The types that the functions of `ExprCheck.Ty.Spelling` put together, of structs whose
declarations are `ok`. -/
inductive Composed (ok : StructDef Ty → Prop) : Ty → Prop
  | number (kind : NumberKind) : Composed ok (number kind)
  | bool : Composed ok bool
  | str : Composed ok str
  | nil : Composed ok nil
  | any : Composed ok any
  | void : Composed ok void
  | generic (name : String) : Composed ok (generic name)
  | slice {element : Ty} (h : Composed ok element) : Composed ok (sliceOf element)
  | array {element : Ty} (h : Composed ok element) (size : ArraySize) :
      Composed ok (arrayOf element size)
  | map {key value : Ty} (hk : Composed ok key) (hv : Composed ok value) :
      Composed ok (mapOf key value)
  | tuple {components : List Ty} (h : ∀ c ∈ components, Composed ok c) :
      Composed ok (tupleOf components)
  | struct {decl : StructDef Ty} {args : List Ty} (hd : ok decl)
      (h : ∀ a ∈ args, Composed ok a) : Composed ok (structOf decl args)
  | trait (decl : TraitDef) : Composed ok (traitOf decl)
  | enum (decl : EnumDef Ty) : Composed ok (enumOf decl)
  | func (signature : Signature Ty) : Composed ok (funcOf signature)
  | pointers {t : Ty} (h : Composed ok t) (count : Nat) : Composed ok (t.addPointers count)

theorem Composed.component {ok : StructDef Ty → Prop} (h : Composed ok t) {cs : List Ty}
    (hcs : t.components? = some cs) : ∀ c ∈ cs, Composed ok c := by
  induction h with
  | tuple h =>
    cases hcs
    exact h
  | pointers _ _ ih => exact ih hcs
  | _ => cases hcs

theorem Composed.ok_of_payload {ok : StructDef Ty → Prop} (h : Composed ok t)
    {decl : StructDef Ty} {args : List Ty} (hp : t.payload = .struct decl args) : ok decl := by
  induction h with
  | struct hd =>
    cases hp
    exact hd
  | pointers _ _ ih => exact ih hp
  | _ => cases hp

/-- The declaration has the placeholders that are listed for its name in its file. -/
def DeclaredBy (generics : String → String → List String) (d : StructDef Ty) : Prop :=
  d.generics = generics d.name d.file

theorem Composed.agreeOnGenerics {generics : String → String → List String}
    (ha : Composed (DeclaredBy generics) a) (hb : Composed (DeclaredBy generics) b) :
    AgreeOnGenerics a b := by
  intro d as e bs hd he hsame
  obtain ⟨hname, hfile⟩ := (sameAs_iff d e).1 hsame
  calc d.generics = generics d.name d.file := ha.ok_of_payload hd
    _ = generics e.name e.file := by rw [hname, hfile]
    _ = e.generics := (hb.ok_of_payload he).symm

/-! ## 3. Types from both sides -/

/-- At one place of the two types, in tuples or not, one has `nil` and the other a
function. -/
inductive NilFacesFunc : Ty → Ty → Prop
  | nilFunc {a b : Ty} (ha : a.isNil) (hb : b.isFunc) : NilFacesFunc a b
  | funcNil {a b : Ty} (ha : a.isFunc) (hb : b.isNil) : NilFacesFunc a b
  | component {a b c d : Ty} {as bs : List Ty} (ha : a.components? = some as)
      (hb : b.components? = some bs) (hmem : (c, d) ∈ as.zip bs) (h : NilFacesFunc c d) :
      NilFacesFunc a b

theorem compatibleAll_comm {as bs : List Ty}
    (h : ∀ p ∈ as.zip bs, compatible ignoreAny p.1 p.2 = compatible ignoreAny p.2 p.1) :
    compatibleAll ignoreAny as bs = compatibleAll ignoreAny bs as := by
  induction as generalizing bs with
  | nil => cases bs <;> rfl
  | cons a as ih =>
    cases bs with
    | nil => rfl
    | cons b bs =>
      have hab : compatible ignoreAny a b = compatible ignoreAny b a :=
        h (a, b) (List.mem_cons_self ..)
      rw [compatibleAll, compatibleAll, hab, ih fun p hp => h p (List.mem_cons_of_mem _ hp)]

theorem Composed.compatible_comm {generics : String → String → List String}
    (ha : Composed (DeclaredBy generics) a) (hb : Composed (DeclaredBy generics) b)
    (hn : ¬NilFacesFunc a b) : compatible ignoreAny a b = compatible ignoreAny b a := by
  induction a using induction_on_components generalizing b with
  | h a ih =>
    have hverdict : verdict? ignoreAny a b = verdict? ignoreAny b a :=
      verdict?_comm (ha.agreeOnGenerics hb) (fun h => hn (.nilFunc h.1 h.2))
        fun h => hn (.funcNil h.1 h.2)
    rw [compatible_eq, compatible_eq, hverdict]
    congr 1
    cases has : a.components? with
    | none => cases b.components? <;> rfl
    | some as =>
      cases hbs : b.components? with
      | none => rfl
      | some bs =>
        refine compatibleAll_comm fun p hp => ?_
        have hmem := List.of_mem_zip hp
        exact ih as has p.1 hmem.1 (ha.component has p.1 hmem.1) (hb.component hbs p.2 hmem.2)
          fun h => hn (.component has hbs hp h)

/-- A function meets `nil`, but `nil` does not meet a function. -/
theorem compatible_func_nil (ignoreAny : Bool) (signature : Signature Ty) :
    compatible ignoreAny (funcOf signature) nil = true ∧
      compatible ignoreAny nil (funcOf signature) = false := by
  have hbare : (funcOf signature).isPointer = false ∧ nil.isPointer = false := ⟨rfl, rfl⟩
  have hnil : nil.bareCategory? = some .nil := rfl
  constructor <;>
    simp [compatible_eq, verdict?, hbare, hnil, isFunc_funcOf, isSlice, isArray, isMap, isTrait,
      admitsNil, isNil]

/-- Types that are put together of declarations known by name and file are compatible from
both sides or from neither, unless at some place `nil` faces a function; and there a
function on the left meets `nil`, and `nil` on the left does not meet a function. -/
theorem compatible_comm_unless_nil_func (generics : String → String → List String)
    (ignoreAny : Bool) :
    (∀ a b, Composed (DeclaredBy generics) a → Composed (DeclaredBy generics) b →
      ¬NilFacesFunc a b → compatible ignoreAny a b = compatible ignoreAny b a) ∧
    ∀ signature, compatible ignoreAny (funcOf signature) nil = true ∧
      compatible ignoreAny nil (funcOf signature) = false :=
  ⟨fun _ _ ha hb hn => ha.compatible_comm hb hn, compatible_func_nil ignoreAny⟩

/-- `nil` in a tuple, facing a slice, beside a struct with arguments. -/
theorem compatible_comm_nil_slice :
    let box : StructDef Ty := ⟨"Box", "box.jn", ["T"], [], []⟩
    let generics : String → String → List String := fun _ _ => ["T"]
    let a := tupleOf [nil, structOf box [str]]
    let b := tupleOf [sliceOf str, structOf box [str]]
    Composed (DeclaredBy generics) a ∧ Composed (DeclaredBy generics) b ∧ ¬NilFacesFunc a b ∧
      compatible false a b = compatible false b a := by
  intro box generics a b
  have hstruct : Composed (DeclaredBy generics) (structOf box [str]) :=
    .struct rfl (by simp [Composed.str])
  have ha : Composed (DeclaredBy generics) a := .tuple (by simp [Composed.nil, hstruct])
  have hb : Composed (DeclaredBy generics) b :=
    .tuple (by simp [Composed.slice Composed.str, hstruct])
  have hn : ¬NilFacesFunc a b := by
    intro h
    cases h with
    | nilFunc h => cases h
    | funcNil h => cases h
    | component has hbs hmem h =>
      cases has
      cases hbs
      simp only [List.zip_cons_cons, List.zip_nil_right, List.mem_cons, Prod.mk.injEq,
        List.not_mem_nil, or_false] at hmem
      rcases hmem with ⟨rfl, rfl⟩ | ⟨rfl, rfl⟩
      all_goals
        cases h with
        | nilFunc _ hb => cases hb
        | funcNil ha => cases ha
        | component ha => cases ha
  exact ⟨ha, hb, hn, (compatible_comm_unless_nil_func generics false).1 a b ha hb hn⟩

/-- The order matters for `nil` and a function without parameters and result. -/
theorem nil_left_of_func :
    let f := funcOf ⟨"f", [], void, []⟩
    compatible false nil f = false ∧ compatible false f nil = true := by
  intro f
  exact (compatible_func_nil false _).symm

end ExprCheck.Ty
