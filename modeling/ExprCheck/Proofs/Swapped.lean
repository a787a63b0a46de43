/-
ExprCheck.Proofs.Swapped — operations the other way round.

An operator that does not ask which operand comes first yields the same in both orders
(`resolve_swap`), but for joined texts. `Check.Mirrors` sets the two runs side by side: they
report problems of the same keys at the same places. What the problems say may differ, since
a message names the operands in their order, and so may the type, as long as it is spelled
alike: it is taken from one of the operands.

There is one lemma for each sort of operands. The order could matter in four places, and each
has its own reason why it does not:

* compatibility is asked in the order of the operands. It depends on the order only for `nil`
  and a function, about which the sort decides before, and for tuples, which are of no sort;
* of two numbers of one rank the left one gives the type. Kinds of one rank are equal, and a
  number that is named by its kind is spelled like every other of that kind;
* of two pointers the left one gives the type. They are compatible only if they are spelled
  alike;
* constants are folded in the form of the left one, for which see `ExprCheck.Proofs.Folding`.
-/
import ExprCheck.Proofs.Alike
import ExprCheck.Proofs.Folding
import ExprCheck.Proofs.Symmetry

namespace ExprCheck

/-! ## 1. Two runs side by side -/

/-- What does not depend on the arguments of a problem. -/
def Diagnostic.keyed (d : Diagnostic) : String × Position := (d.problem.key, d.position)

namespace Check

/-- Both checks run, report problems of the same keys at the same places, and yield results
that `R` relates. -/
def Mirrors (R : α → β → Prop) (m : Check α) (m' : Check β) : Prop :=
  ∃ a new b more, Runs m a new ∧ Runs m' b more ∧ R a b ∧
    new.map Diagnostic.keyed = more.map Diagnostic.keyed

variable {R : α → β → Prop} {m : Check α} {m' : Check β}

theorem mirrors_pure {a : α} {b : β} (h : R a b) : Mirrors R (pure a) (pure b) :=
  ⟨a, [], b, [], runs_pure a, runs_pure b, h, rfl⟩

theorem mirrors_report {p q : Problem} (h : p.key = q.key) (pos : Position) :
    Mirrors (fun _ _ => True) (report p pos) (report q pos) := by
  refine ⟨(), _, (), _, runs_report p pos, runs_report q pos, trivial, ?_⟩
  simp only [List.map_cons, List.map_nil, Diagnostic.keyed, h]

theorem Mirrors.bind {S : γ → δ → Prop} {f : α → Check γ} {f' : β → Check δ}
    (h : Mirrors R m m') (hf : ∀ a b, R a b → Mirrors S (f a) (f' b)) :
    Mirrors S (m >>= f) (m' >>= f') := by
  obtain ⟨a, new, b, more, hm, hm', hR, hnew⟩ := h
  obtain ⟨c, own, d, own', hc, hd, hS, hown⟩ := hf a b hR
  refine ⟨c, _, d, _, hm.bind hc, hm'.bind hd, hS, ?_⟩
  rw [List.map_append, List.map_append, hnew, hown]

theorem mirrors_report_pure {p q : Problem} {pos : Position} {a : α} {b : β}
    (hkey : p.key = q.key) (h : R a b) :
    Mirrors R (report p pos >>= fun _ => pure a) (report q pos >>= fun _ => pure b) :=
  (mirrors_report hkey pos).bind fun _ _ _ => mirrors_pure h

end Check

open Check

/-! ## 2. Operands in either order -/

/-- The operators that do not ask which operand comes first. -/
def Operator.isSymmetric : Operator → Bool
  | .arithmetic .add | .arithmetic .mul | .bitwise _ | .compare .eq | .compare .ne | .logical _ =>
    true
  | .arithmetic .sub | .divide | .remainder | .compare .lt | .compare .gt | .compare .le
  | .compare .ge | .shift _ => false

theorem Operator.isSymmetric_compare {op : Comparison} (h : (compare op).isSymmetric) :
    op = .eq ∨ op = .ne := by
  cases op <;> simp_all [isSymmetric]

theorem Operator.isSymmetric_arithmetic {op : Arithmetic} (h : (arithmetic op).isSymmetric) :
    op = .add ∨ op = .mul := by
  cases op <;> simp_all [isSymmetric]

theorem OperandSort.of?_comm (l r : Ty) : of? l r = of? r l := by
  simp only [of?, Bool.or_comm]

namespace Ty

variable {l r : Ty}

/-- The type itself, and what enums are stored in. -/
inductive Opens : Ty → Ty → Prop
  | refl (t : Ty) : Opens t t
  | storage {t s u : Ty} (h : t.storage? = some s) (hs : Opens s u) : Opens t u

/-- A number has the name of its kind. -/
def NamedByKind (t : Ty) : Prop := ∀ kind, t.category = .number kind → t.name = kind.name

/-- Opened or not, the types have names that tell them apart: a number has that of its kind,
and structs of one name in one file have the same placeholders. -/
structure Canonical (l r : Ty) : Prop where
  left : ∀ u, l.Opens u → u.NamedByKind
  right : ∀ u, r.Opens u → u.NamedByKind
  structs : ∀ u v, l.Opens u → r.Opens v → AgreeOnGenerics u v

theorem Canonical.open_left {s : Ty} (h : Canonical l r) (hs : l.storage? = some s) :
    Canonical s r where
  left := fun u hu => h.left u (.storage hs hu)
  right := h.right
  structs := fun u v hu hv => h.structs u v (.storage hs hu) hv

theorem Canonical.open_right {s : Ty} (h : Canonical l r) (hs : r.storage? = some s) :
    Canonical l s where
  left := h.left
  right := fun u hu => h.right u (.storage hs hu)
  structs := fun u v hu hv => h.structs u v hu (.storage hs hv)

/-- Two numbers of one kind are spelled alike. -/
theorem spelling_of_numberKind {kind : NumberKind} (hname : l.NamedByKind)
    (h : l.numberKind? = some kind) : l.spelling = kind.name := by
  obtain ⟨hpointer, hcategory⟩ := numberKind?_eq_some.1 h
  have hpointers : l.pointers = 0 := by simpa [isPointer] using hpointer
  rw [spelling, hpointers, hname kind hcategory, List.replicate_zero]
  exact String.empty_append

/-- Functions are the first sort that is tried. -/
theorem not_isFunc_of_of? {sort : OperandSort} (h : OperandSort.of? l r = some sort)
    (hs : sort ≠ .func) : l.isFunc = false ∧ r.isFunc = false := by
  cases hf : l.isFunc || r.isFunc with
  | false => simpa using hf
  | true =>
    have hfirst : OperandSort.of? l r = some .func := List.find?_cons_of_pos hf
    rw [hfirst, Option.some.injEq] at h
    exact absurd h.symm hs

/-- Operands that functions do not decide about are compatible in both orders or in neither. -/
theorem compatible_comm_of_sort {sort : OperandSort} (h : OperandSort.of? l r = some sort)
    (hs : sort ≠ .func) (hstructs : AgreeOnGenerics l r) (ignoreAny : Bool) :
    compatible ignoreAny r l = compatible ignoreAny l r := by
  obtain ⟨hl, hr⟩ := not_isFunc_of_of? h hs
  have hverdict : verdict? ignoreAny l r = verdict? ignoreAny r l :=
    verdict?_comm hstructs (fun hn => by simp [hr] at hn) fun hn => by simp [hl] at hn
  rw [compatible_eq, compatible_eq, ← hverdict]
  have hd := decides_verdict? ignoreAny l r
  cases hv : verdict? ignoreAny l r with
  | some verdict => rfl
  | none =>
    rw [hv] at hd
    cases hd with
    | tuple hlt hrt =>
      -- tuples are of no sort
      rcases Bool.or_eq_true_iff.1 (Operation.admits_of_of? h) with hadmits | hadmits
      · cases OperandSort.eq_of_admits hlt hadmits
      · cases OperandSort.eq_of_admits hrt hadmits

end Ty

theorem NumberKind.rank_inj {a b : NumberKind} (h : a.rank = b.rank) : a = b := by
  cases a <;> cases b <;> first | rfl | cases h

/-! ## 3. Outcomes -/

/-- The outcomes of one operation in both orders. Where `joins` holds two texts are joined,
which are others in the other order. -/
inductive Outcome.Swapped (joins : Prop) : Outcome → Outcome → Prop
  | alike {x y : Outcome} (hspelling : x.type.spelling = y.type.spelling)
      (hnumeric : x.type.isNumeric = y.type.isNumeric) (hconst : x.const = y.const)
      (hnarrows : x.narrows = y.narrows) : Swapped joins x y
  | joined (h : joins) (s t : Option String) :
      Swapped joins (.typed Ty.str (s.map .str)) (.typed Ty.str (t.map .str))

theorem Outcome.Swapped.refl {joins : Prop} (x : Outcome) : Swapped joins x x :=
  .alike rfl rfl rfl rfl

namespace Operation

def swap (o : Operation) : Operation := { o with left := o.right, right := o.left }

@[simp] theorem swap_left (o : Operation) : o.swap.left = o.right := rfl
@[simp] theorem swap_right (o : Operation) : o.swap.right = o.left := rfl
@[simp] theorem swap_op (o : Operation) : o.swap.op = o.op := rfl

/-- Checks that yield outcomes of one operation in both orders, if they yield any. -/
abbrev Mirrored (joins : Prop) : Check (Option Outcome) → Check (Option Outcome) → Prop :=
  Mirrors (Option.Rel (Outcome.Swapped joins))

variable (o : Operation) {joins : Prop}

theorem mirrored_some {x y : Outcome} (h : x.Swapped joins y) :
    Mirrored joins (pure (some x)) (pure (some y)) :=
  mirrors_pure (.some h)

theorem incompatible_swap : Mirrored joins o.incompatible o.swap.incompatible :=
  mirrors_report_pure rfl .none

theorem notFor_swap (sort : OperandSort) : Mirrored joins (o.notFor sort) (o.swap.notFor sort) :=
  mirrors_report_pure rfl .none

theorem known?_swap : o.swap.known? = o.known?.map Prod.swap := by
  unfold known?
  rw [swap_left, swap_right]
  cases o.left.known? <;> cases o.right.known? <;> rfl

theorem compared?_swap {op : Comparison} (hop : op = .eq ∨ op = .ne) :
    o.swap.compared? op = o.compared? op := by
  rw [compared?, compared?, known?_swap]
  cases o.known? with
  | none => rfl
  | some known => exact Constant.compareBy?_comm hop known.1 known.2

/-- What is folded of both constants is the same in both orders, if the constants that are
known are folded to the same. -/
theorem map_known?_swap {α : Type} {f : Constant × Constant → α}
    (hf : ∀ a b, o.known? = some (a, b) → f (b, a) = f (a, b)) :
    o.swap.known?.map f = o.known?.map f := by
  rw [known?_swap]
  cases h : o.known? with
  | none => rfl
  | some known => exact congrArg some (hf known.1 known.2 h)

/-! ## 4. Operations on one sort -/

theorem equality_swap (sort : OperandSort) :
    Mirrored joins (o.equality sort) (o.swap.equality sort) := by
  unfold equality
  rw [swap_op]
  split
  · exact mirrored_some (.refl _)
  · exact o.notFor_swap sort

theorem onFunc_swap : Mirrored joins o.onFunc o.swap.onFunc := by
  unfold onFunc
  rw [swap_left, swap_right, Bool.or_comm o.right.type.isNil]
  split
  · exact o.equality_swap .func
  · exact o.incompatible_swap

theorem onEqual_swap (sort : OperandSort) {ignoreAny : Bool}
    (hc : o.swap.compatible ignoreAny = o.compatible ignoreAny) :
    Mirrored joins (o.onEqual sort ignoreAny) (o.swap.onEqual sort ignoreAny) := by
  unfold onEqual
  rw [hc]
  split
  · exact o.equality_swap sort
  · exact o.incompatible_swap

/-- The pointer among the operands, or the one that is taken for it. -/
theorem pointer_swap (hpointer : o.left.type.isPointer || o.right.type.isPointer)
    (hc : o.compatible true) :
    Outcome.Swapped joins
      (.typed (if o.left.type.isPointer then o.left else o.right).type none)
      (.typed (if o.right.type.isPointer then o.right else o.left).type none) := by
  by_cases hl : o.left.type.isPointer
  · by_cases hr : o.right.type.isPointer
    · rw [if_pos hl, if_pos hr]
      have hsame : o.left.type.spelling = o.right.type.spelling := by
        rw [compatible, Ty.compatible_eq, Ty.verdict?_of_isPointer hpointer, Option.getD_some,
          Ty.nilOrSame, Ty.isNil_of_isPointer hl, Ty.isNil_of_isPointer hr] at hc
        simpa using hc
      refine .alike hsame ?_ rfl rfl
      simp only [Outcome.typed, Ty.isNumeric, Ty.numberKind?, Ty.bareCategory?_of_isPointer hl,
        Ty.bareCategory?_of_isPointer hr]
    · rw [if_pos hl, if_neg hr]
      exact .refl _
  · have hr : o.right.type.isPointer := by simpa [hl] using hpointer
    rw [if_neg hl, if_pos hr]
    exact .refl _

theorem onPointer_swap (hpointer : o.left.type.isPointer || o.right.type.isPointer)
    (hc : o.swap.compatible true = o.compatible true) :
    Mirrored joins o.onPointer o.swap.onPointer := by
  unfold onPointer
  rw [hc, swap_op]
  split
  · rename_i hcompatible
    have hmoved : Outcome.Swapped joins _ _ := o.pointer_swap hpointer hcompatible
    split
    · exact mirrored_some hmoved
    · exact mirrored_some hmoved
    · exact mirrored_some (.refl _)
    · exact o.notFor_swap .pointer
  · exact o.incompatible_swap

theorem onBool_swap (hc : o.swap.compatible true = o.compatible true) :
    Mirrored joins o.onBool o.swap.onBool := by
  unfold onBool
  rw [hc, swap_op, o.compared?_swap (.inl rfl), o.compared?_swap (.inr rfl)]
  split
  · split
    · exact mirrored_some (.refl _)
    · exact mirrored_some (.refl _)
    · exact o.notFor_swap .bool
  · exact o.incompatible_swap

theorem onStr_swap
    (hj : o.op = .arithmetic .add → o.left.type.isStr → o.right.type.isStr → joins) :
    Mirrored joins o.onStr o.swap.onStr := by
  unfold onStr
  rw [swap_left, swap_right, swap_op, Bool.and_comm o.right.type.isStr,
    o.compared?_swap (.inl rfl), o.compared?_swap (.inr rfl)]
  split
  · rename_i hstr
    rw [Bool.and_eq_true] at hstr
    split
    · rename_i hop
      have hjoined (s t : Option String) :=
        mirrored_some (Outcome.Swapped.joined (hj hop hstr.1 hstr.2) s t)
      split
      · split
        · exact hjoined (some _) (some _)
        · exact hjoined (some _) none
      · split
        · exact hjoined none (some _)
        · exact hjoined none none
    · exact mirrored_some (.refl _)
    · exact mirrored_some (.refl _)
    · exact o.notFor_swap .str
  · exact o.incompatible_swap

/-! ## 5. Numbers -/

variable {left right : NumberKind}

/-- Of operands of one rank the type is taken from the other one, which is spelled alike. -/
theorem wider_swap (hl : o.left.type.numberKind? = some left)
    (hr : o.right.type.numberKind? = some right) (hln : o.left.type.NamedByKind)
    (hrn : o.right.type.NamedByKind) :
    (o.swap.wider right left).1 = (o.wider left right).1 ∧
      (o.swap.wider right left).2.spelling = (o.wider left right).2.spelling := by
  unfold wider
  rw [swap_left, swap_right]
  by_cases hlt : left.rank < right.rank
  · rw [if_pos hlt, if_neg (by omega)]
    exact ⟨rfl, rfl⟩
  · rw [if_neg hlt]
    by_cases hgt : right.rank < left.rank
    · rw [if_pos hgt]
      exact ⟨rfl, rfl⟩
    · rw [if_neg hgt]
      have hkind : right = left := NumberKind.rank_inj (by omega)
      subst hkind
      exact ⟨rfl, by rw [Ty.spelling_of_numberKind hrn hr, Ty.spelling_of_numberKind hln hl]⟩

theorem arithmetic_swap {op : Arithmetic} (hop : op = .add ∨ op = .mul) :
    o.swap.known?.map (fun (a, b) => Constant.arithmetic op a b) =
      o.known?.map fun (a, b) => Constant.arithmetic op a b :=
  o.map_known?_swap fun a b _ => Constant.arithmetic_comm hop a b

/-- Bits are the same in both orders where the constants of integers are integers. -/
theorem bitwise_swap (op : Bitwise) {kind : NumberKind} (hk : kind.isInteger)
    (hl : o.left.type.numberKind? = some left) (hr : o.right.type.numberKind? = some right)
    (hli : left.isInteger) (hri : right.isInteger) (hexact : o.left.Exact ∧ o.right.Exact) :
    o.swap.known?.map (fun (a, b) => (a.bitwise op b).cast kind) =
      o.known?.map fun (a, b) => (a.bitwise op b).cast kind := by
  refine o.map_known?_swap fun a b hab => ?_
  obtain ⟨ha, hb⟩ := o.known?_eq_some hab
  exact Constant.cast_bitwise_comm (hexact.1.isSome_integer? hl hli ha)
    (hexact.2.isSome_integer? hr hri hb) hk op

theorem onNumbers_swap (sort : OperandSort) (hsym : o.op.isSymmetric)
    (hln : o.left.type.NamedByKind) (hrn : o.right.type.NamedByKind)
    (hsort : sort ≠ .float → o.left.type.isFloat = false ∧ o.right.type.isFloat = false)
    (hexact : ∀ op, o.op = .bitwise op → o.left.Exact ∧ o.right.Exact) :
    Mirrored joins (o.onNumbers sort) (o.swap.onNumbers sort) := by
  unfold onNumbers
  rw [swap_left, swap_right, swap_op]
  cases hl : o.left.type.numberKind? with
  | none =>
    cases o.right.type.numberKind? with
    | none | some => exact o.incompatible_swap
  | some left =>
    cases hr : o.right.type.numberKind? with
    | none => exact o.incompatible_swap
    | some right =>
      obtain ⟨hkind, hspelling⟩ := o.wider_swap hl hr hln hrn
      have hnumeric : (o.wider left right).2.isNumeric = (o.swap.wider right left).2.isNumeric := by
        rw [Ty.isNumeric, Ty.isNumeric, o.wider_numberKind hl hr, o.swap.wider_numberKind hr hl]
        rfl
      -- a number that both orders have the same constant for
      have hnumber (x : Option Constant) :
          Mirrored joins (pure (some (.typed (o.wider left right).2 x)))
            (pure (some (.typed (o.swap.wider right left).2 x))) :=
        mirrored_some (.alike hspelling.symm hnumeric rfl rfl)
      dsimp only
      rw [hkind]
      cases hop : o.op with
      | compare op =>
        dsimp only
        rw [o.compared?_swap (Operator.isSymmetric_compare (hop ▸ hsym))]
        exact mirrored_some (.refl _)
      | arithmetic op =>
        dsimp only
        rw [o.arithmetic_swap (Operator.isSymmetric_arithmetic (hop ▸ hsym))]
        split
        · exact (mirrors_report rfl _).bind fun _ _ _ => hnumber _
        · exact hnumber _
      | bitwise op =>
        dsimp only
        by_cases hs : sort = .float
        · subst hs
          exact o.notFor_swap .float
        · have hintegers : (sort != .float) = true := by simpa using hs
          obtain ⟨hlf, hrf⟩ := hsort hs
          have hli := Ty.isInteger_of_not_isFloat hl hlf
          have hri := Ty.isInteger_of_not_isFloat hr hrf
          have hki : (o.wider left right).1.isInteger :=
            o.wider_fst left right ▸ NumberKind.promoted_isInteger hli hri
          rw [o.bitwise_swap op hki hl hr hli hri (hexact op hop), if_pos hintegers,
            if_pos hintegers]
          exact hnumber _
      | logical op => exact o.notFor_swap sort
      | divide | remainder | shift =>
        rw [hop] at hsym
        cases hsym

/-! ## 6. All sorts -/

theorem onSort_swap {sort : OperandSort}
    (h : OperandSort.of? o.left.type o.right.type = some sort) (hsym : o.op.isSymmetric)
    (hcanonical : o.left.type.Canonical o.right.type)
    (hexact : ∀ op, o.op = .bitwise op → o.left.Exact ∧ o.right.Exact)
    (hj : o.op = .arithmetic .add → o.left.type.isStr → o.right.type.isStr → joins) :
    Mirrored joins (o.onSort sort) (o.swap.onSort sort) := by
  have hln := hcanonical.left _ (.refl _)
  have hrn := hcanonical.right _ (.refl _)
  have hc (hs : sort ≠ .func) (ignoreAny : Bool) :
      o.swap.compatible ignoreAny = o.compatible ignoreAny :=
    Ty.compatible_comm_of_sort h hs (hcanonical.structs _ _ (.refl _) (.refl _)) ignoreAny
  cases sort with
  | func => exact o.onFunc_swap
  | array => exact o.onEqual_swap .array (hc (by decide) true)
  | slice => exact o.onEqual_swap .slice (hc (by decide) true)
  | struct => exact o.onEqual_swap .struct (hc (by decide) true)
  | trait => exact o.onEqual_swap .trait (hc (by decide) true)
  | map => exact o.onEqual_swap .map (hc (by decide) true)
  | pointer => exact o.onPointer_swap (admits_of_of? h) (hc (by decide) true)
  | enum => exact o.incompatible_swap
  | nil => exact o.onEqual_swap .nil (hc (by decide) false)
  | any => exact o.equality_swap .any
  | bool => exact o.onBool_swap (hc (by decide) true)
  | str => exact o.onStr_swap hj
  | float => exact o.onNumbers_swap .float hsym hln hrn (fun h => absurd rfl h) hexact
  | unsigned =>
    exact o.onNumbers_swap .unsigned hsym hln hrn (fun _ => not_isFloat_of_of? h (.inl rfl)) hexact
  | signed =>
    exact o.onNumbers_swap .signed hsym hln hrn (fun _ => not_isFloat_of_of? h (.inr rfl)) hexact

/-- The operation joins two texts. -/
def Joins (o : Operation) : Prop :=
  o.op = .arithmetic .add ∧ o.left.type.stored.isStr ∧ o.right.type.stored.isStr

theorem joins_open_left {s : Ty} (h : o.left.type.storage? = some s) :
    Joins { o with left := o.left.retyped s } = o.Joins := by
  simp only [Joins, Value.retyped, Ty.stored_of_storage h]

theorem joins_open_right {s : Ty} (h : o.right.type.storage? = some s) :
    Joins { o with right := o.right.retyped s } = o.Joins := by
  simp only [Joins, Value.retyped, Ty.stored_of_storage h]

theorem joins_of_isStr (hop : o.op = .arithmetic .add) (hl : o.left.type.isStr)
    (hr : o.right.type.isStr) : o.Joins := by
  have stored {t : Ty} (h : t.isStr) : t.stored = t := by
    have hb : t.bareCategory? = some .str := by simpa [Ty.isStr] using h
    exact Ty.stored_of_not_isEnum (by simp [Ty.isEnum, hb])
  rw [Joins, stored hl, stored hr]
  exact ⟨hop, hl, hr⟩

/-- Enums are opened on whichever side they are. -/
theorem outcome_swap (hsym : o.op.isSymmetric) (hcanonical : o.left.type.Canonical o.right.type)
    (hexact : ∀ op, o.op = .bitwise op → o.left.Exact ∧ o.right.Exact) :
    Mirrored o.Joins o.outcome o.swap.outcome := by
  have swapped {o : Operation} {sort : Option OperandSort}
      (h : OperandSort.of? o.left.type o.right.type = sort) :
      OperandSort.of? o.swap.left.type o.swap.right.type = sort :=
    (OperandSort.of?_comm _ _).trans h
  fun_induction outcome o with
  | case1 o h =>
    rw [outcome, swapped h]
    exact o.incompatible_swap
  | case2 o h hl hr =>
    rw [outcome_enum (swapped h), swap_left, swap_right, hl, hr]
    exact o.incompatible_swap
  | case3 o h left hl hr ih =>
    rw [outcome_enum (swapped h), swap_left, swap_right, hl, hr, ← o.joins_open_left hl]
    exact ih hsym (hcanonical.open_left hl) fun op hop =>
      ⟨(Value.exact_retyped hl).2 (hexact op hop).1, (hexact op hop).2⟩
  | case4 o h right hl hr ih =>
    rw [outcome_enum (swapped h), swap_left, swap_right, hl, hr, ← o.joins_open_right hr]
    exact ih hsym (hcanonical.open_right hr) fun op hop =>
      ⟨(hexact op hop).1, (Value.exact_retyped hr).2 (hexact op hop).2⟩
  | case5 o h left right hl hr ih =>
    rw [outcome_enum (swapped h), swap_left, swap_right, hl, hr, ← o.joins_open_left hl,
      ← joins_open_right { o with left := o.left.retyped left } hr]
    exact ih hsym ((hcanonical.open_left hl).open_right hr) fun op hop =>
      ⟨(Value.exact_retyped hl).2 (hexact op hop).1, (Value.exact_retyped hr).2 (hexact op hop).2⟩
  | case6 o sort hne h =>
    have hsort : o.swap.outcome = o.swap.onSort sort := by
      rw [outcome, swapped h]
      cases sort with
      | enum => exact absurd rfl hne
      | _ => rfl
    rw [hsort]
    exact o.onSort_swap h hsym hcanonical hexact o.joins_of_isStr

theorem logical_swap (op : Logical) :
    Mirrors (Outcome.Swapped joins) (o.logical op) (o.swap.logical op) := by
  have hcomm (a b : Bool) : op.apply b a = op.apply a b := by
    cases op with
    | and => exact Bool.and_comm b a
    | or => exact Bool.or_comm b a
  unfold logical
  rw [swap_left, swap_right, Bool.or_comm (!o.right.type.isBool), known?_swap]
  split
  · exact mirrors_report_pure rfl (.refl _)
  · cases o.known? with
    | none => exact mirrors_pure (.refl _)
    | some known =>
      obtain ⟨a, b⟩ := known
      cases a with
      | bool a =>
        cases b with
        | bool b =>
          simp only [Option.map_some, Prod.swap_prod_mk, hcomm a b]
          exact mirrors_pure (.refl _)
        | signed | unsigned | float | str => exact mirrors_pure (.refl _)
      | signed | unsigned | float | str => cases b <;> exact mirrors_pure (.refl _)

end Operation

/-! ## 7. Binary operations -/

/-- The values of one operation in both orders. -/
structure Value.Swapped (joins : Prop) (v w : Value) : Prop where
  spelling : v.type.spelling = w.type.spelling
  const : ¬joins → v.const = w.const

theorem Value.Swapped.refl {joins : Prop} (v : Value) : v.Swapped joins v :=
  ⟨rfl, fun _ => rfl⟩

/-- With one constant, outcomes in both orders get types that are spelled alike. -/
theorem Outcome.finalType_alike {x y : Outcome} (hspelling : x.type.spelling = y.type.spelling)
    (hnumeric : x.type.isNumeric = y.type.isNumeric) (hnarrows : x.narrows = y.narrows)
    (const : Option Constant) :
    (x.finalType const).spelling = (y.finalType const).spelling := by
  unfold finalType
  rw [hnumeric, hnarrows]
  split
  · split
    · rfl
    · exact hspelling
  · exact hspelling

theorem Operation.finish_swap (o : Operation) (settings : Settings) {joins : Prop}
    {x y : Outcome} (h : x.Swapped joins y) :
    (o.finish settings x).Swapped joins (o.swap.finish settings y) := by
  unfold finish
  cases h with
  | alike hspelling hnumeric hconst hnarrows =>
    rw [hconst]
    exact ⟨Outcome.finalType_alike hspelling hnumeric hnarrows _, fun _ => rfl⟩
  | joined hj s t =>
    refine ⟨?_, fun hn => absurd hj hn⟩
    cases settings.foldConstants <;> cases s <;> cases t <;> rfl

/-- An operator that does not ask which operand comes first reports problems of the same keys
at the same places in both orders, and yields values whose types are spelled alike. Their
constants are equal, but for those of joined texts. Enums are judged by what they are stored
in. -/
theorem resolve_swap (settings : Settings) {left right : Value} {token : Token} {op : Operator}
    (hop : Operator.ofKind? token.kind = some op) (hsym : op.isSymmetric)
    (hcanonical : left.type.Canonical right.type)
    (hexact : ∀ bits, op = .bitwise bits → left.Exact ∧ right.Exact) :
    Mirrors
      (Value.Swapped
        (op = .arithmetic .add ∧ left.type.stored.isStr ∧ right.type.stored.isStr))
      (resolve settings left token right) (resolve settings right token left) := by
  unfold resolve
  rw [hop]
  dsimp only
  split
  · exact (Operation.logical_swap ⟨left, _, token, right⟩ _).bind fun x y h =>
      mirrors_pure (Operation.finish_swap ⟨left, _, token, right⟩ settings h)
  · refine (Operation.outcome_swap ⟨left, op, token, right⟩ hsym hcanonical hexact).bind ?_
    rintro x y (h | _)
    · exact mirrors_pure (Operation.finish_swap ⟨left, _, token, right⟩ settings h)
    · exact mirrors_pure (.refl _)

/-- The bits of an enum that is stored in a signed kind, and of an unsigned number. -/
theorem resolve_swap_bits :
    let flags : EnumDef Ty := ⟨"Mask", "mask.jn", Ty.number .i16, []⟩
    let mask : Value := .ofConstant (Ty.enumOf flags) (.signed (-2))
    let word : Value := .ofConstant (Ty.number .u64) (.unsigned 7)
    let amper := Token.synthetic .amper "&"
    Operator.ofKind? amper.kind = some (.bitwise .and) ∧ mask.type.Canonical word.type ∧
      (mask.Exact ∧ word.Exact) ∧
      ∃ v new w more, Runs (resolve .default mask amper word) v new ∧
        Runs (resolve .default word amper mask) w more ∧
        v.type.spelling = w.type.spelling ∧ v.const = w.const ∧
        new.map Diagnostic.keyed = more.map Diagnostic.keyed := by
  intro flags mask word amper
  have named (kind : NumberKind) : (Ty.number kind).NamedByKind := by
    rintro _ ⟨⟩
    rfl
  have hcanonical : mask.type.Canonical word.type := by
    refine ⟨?_, ?_, ?_⟩
    · rintro u (_ | ⟨⟨⟩, _ | ⟨⟨⟩, _⟩⟩)
      · rintro _ ⟨⟩
      · exact named .i16
    · rintro u (_ | ⟨⟨⟩, _⟩)
      exact named .u64
    · rintro u v - (_ | ⟨⟨⟩, _⟩)
      rintro _ _ _ _ - ⟨⟩
  have hexact : mask.Exact ∧ word.Exact := by
    constructor <;>
    · rintro _ ⟨⟩ -
      rfl
  have hop : Operator.ofKind? amper.kind = some (.bitwise .and) := rfl
  obtain ⟨v, new, w, more, hv, hw, hswapped, hkeys⟩ :=
    resolve_swap .default hop rfl hcanonical fun _ _ => hexact
  -- bits are no joined texts
  have hconst := hswapped.const fun h => Operator.noConfusion h.1
  exact ⟨hop, hcanonical, hexact, v, new, w, more, hv, hw, hswapped.spelling, hconst, hkeys⟩

end ExprCheck
