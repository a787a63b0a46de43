/-
ExprCheck.Proofs.Resolve — what a binary operation yields and reports.

`resolve_meets` is the one statement about `resolve` that the rest of the library
goes by. An operation reports at most one problem, at its operator. Either that
problem refuses the operands and the value is the failed one, or the value is put
together by the rules of `Made`, of a type that is not `void`.

The only way to fault is a remainder whose divisor passes the test for zero and is
zero once it is an integer. `Constant.remainder_of_integers` excludes that between
integers, so `resolve` faults only where a number of another form was declared under
an integer type.
-/
import ExprCheck.Proofs.Check
import ExprCheck.Proofs.Held

namespace ExprCheck

open Check

/-- Under an integer type the value's constant, if it has one, is an integer. -/
def Value.Exact (v : Value) : Prop := ∀ c, v.const = some c → v.type.Exact c

theorem Value.exact_retyped {v : Value} {s : Ty} (h : v.type.storage? = some s) :
    (v.retyped s).Exact ↔ v.Exact := by
  simp only [Value.Exact, Value.retyped, Ty.Exact, Ty.stored_of_storage h]

/-- What an exact value of an integer type is known to be is an integer. -/
theorem Value.Exact.isSome_integer? {v : Value} {kind : NumberKind} {c : Constant} (hv : v.Exact)
    (hk : v.type.numberKind? = some kind) (hi : kind.isInteger) (hc : v.known? = some c) :
    c.integer?.isSome := by
  have hconst : v.const = some c := by
    unfold Value.known? at hc
    split at hc
    · exact hc
    · simp at hc
  apply hv c hconst
  rwa [Ty.stored_of_numberKind hk, Ty.isInteger_of_numberKind hk]

/-- With these problems an operation yields nothing at all. -/
def Problem.refuses : Problem → Bool
  | .invalidOperator _ | .incompatibleOperands .. | .operatorNotFor .. => true
  | _ => false

def Operator.isShift : Operator → Bool
  | .shift _ => true
  | _ => false

/-- The sort of the operands of a category. -/
def Category.operandSort? : Category → Option OperandSort
  | .number kind =>
    some (if kind.isFloat then .float else if kind.isSigned then .signed else .unsigned)
  | .bool => some .bool
  | .str => some .str
  | .nil => some .nil
  | .any => some .any
  | .slice => some .slice
  | .array => some .array
  | .map => some .map
  | .struct => some .struct
  | .trait => some .trait
  | .enum => some .enum
  | .func => some .func
  | .tuple | .generic | .void => none

/-- A type without pointers is of no other sort than its category. -/
theorem OperandSort.eq_of_admits {t : Ty} {c : Category} (hc : t.bareCategory? = some c)
    {sort : OperandSort} (h : sort.admits t) : c.operandSort? = some sort := by
  have hpointer : t.isPointer = false := by
    by_contra hp
    simp [Ty.bareCategory?, hp] at hc
  cases sort <;>
    simp only [admits, Ty.isFunc, Ty.isArray, Ty.isSlice, Ty.isEnum, Ty.isStruct, Ty.isTrait,
      Ty.isMap, Ty.isNil, Ty.isAny, Ty.isBool, Ty.isStr, Ty.isFloat, Ty.isUnsigned, Ty.isSigned,
      Ty.numberKind?, hc, hpointer, Bool.and_eq_true, beq_iff_eq, Option.some.injEq,
      Option.bind_some] at h
  case pointer => cases h
  case float | unsigned | signed =>
    cases c with
    | number kind => cases kind <;> first | rfl | cases h
    | _ => cases h
  -- the other sorts ask for one category, and some of them for marks in the name
  all_goals simp_all [Category.operandSort?]

/-! ## 1. Outcomes -/

/-- The outcomes that operations have. Those of shifts, which keep a type that goes by
the amount, are among them with `shifts`. -/
inductive Outcome.Possible (shifts : Prop) : Outcome → Prop
  | unknown {type : Ty} (narrows : Bool) (h : type.isVoid = false) :
      Possible shifts ⟨type, none, narrows⟩
  | truth (b : Bool) : Possible shifts (.bool (some b))
  | text (s : String) : Possible shifts (.typed Ty.str (some (.str s)))
  | number {type : Ty} {kind : NumberKind} (h : type.numberKind? = some kind) (c : Constant) :
      Possible shifts (.typed type (some (c.cast kind)))
  | zero {type : Ty} {kind : NumberKind} (h : type.numberKind? = some kind) :
      Possible shifts (.fixed type (some (.zero kind)))
  | shifted (h : shifts) (kind : NumberKind) (c : Constant) :
      Possible shifts (.fixed (Ty.number kind) (some (c.cast kind)))

theorem Outcome.possible_bool (shifts : Prop) (b : Option Bool) : Possible shifts (.bool b) := by
  cases b with
  | none => exact .unknown true rfl
  | some b => exact .truth b

/-- A number that is no float is an integer. -/
theorem Ty.isInteger_of_not_isFloat {t : Ty} {kind : NumberKind}
    (h : t.numberKind? = some kind) (hf : t.isFloat = false) : kind.isInteger := by
  simpa [isFloat, h, NumberKind.isInteger] using hf

theorem Ty.isVoid_of_numberKind {t : Ty} {kind : NumberKind} (h : t.numberKind? = some kind) :
    t.isVoid = false := by
  obtain ⟨hp, hc⟩ := numberKind?_eq_some.1 h
  simp [isVoid, bareCategory?, hp, hc]

/-- How an operation at `position` ends: it is refused, or it has a possible outcome,
which may have been reported on. -/
inductive Ends (position : Position) (shifts : Prop) : Option Outcome → List Diagnostic → Prop
  | refused {p : Problem} (h : p.refuses) : Ends position shifts none [⟨p, position⟩]
  | reported {p : Problem} {outcome : Outcome} (h : p.refuses = false)
      (ho : outcome.Possible shifts) : Ends position shifts (some outcome) [⟨p, position⟩]
  | silent {outcome : Outcome} (ho : outcome.Possible shifts) :
      Ends position shifts (some outcome) []

namespace Operation

/-- How the operation ends, at its operator. -/
abbrev Ends (o : Operation) : Option Outcome → List Diagnostic → Prop :=
  ExprCheck.Ends o.token.position o.op.isShift

/-! ## 2. Operations on one sort -/

variable (o : Operation) {fault : Prop}

theorem incompatible_meets : Meets o.incompatible o.Ends fault :=
  meets_report_pure (.refused rfl)

theorem notFor_meets (sort : OperandSort) : Meets (o.notFor sort) o.Ends fault :=
  meets_report_pure (.refused rfl)

/-- An outcome without a report. -/
theorem meets_silent {outcome : Outcome} (h : outcome.Possible o.op.isShift) :
    Meets (pure (some outcome)) o.Ends fault :=
  meets_pure (.silent h)

theorem logical_meets (op : Logical) :
    Meets (o.logical op) (fun outcome new => o.Ends (some outcome) new) fault := by
  unfold logical
  split
  · exact meets_report_pure (.reported rfl (Outcome.possible_bool _ none))
  · split
    · exact meets_pure (.silent (Outcome.possible_bool _ _))
    · exact meets_pure (.silent (Outcome.possible_bool _ _))

theorem equality_meets (sort : OperandSort) : Meets (o.equality sort) o.Ends fault := by
  unfold equality
  split
  · exact o.meets_silent (Outcome.possible_bool _ _)
  · exact o.notFor_meets sort

theorem onFunc_meets : Meets o.onFunc o.Ends fault := by
  unfold onFunc
  split
  · exact o.equality_meets .func
  · exact o.incompatible_meets

theorem onEqual_meets (sort : OperandSort) (ignoreAny : Bool) :
    Meets (o.onEqual sort ignoreAny) o.Ends fault := by
  unfold onEqual
  split
  · exact o.equality_meets sort
  · exact o.incompatible_meets

theorem onPointer_meets (h : o.left.type.isPointer || o.right.type.isPointer) :
    Meets o.onPointer o.Ends fault := by
  have hpointer : (if o.left.type.isPointer then o.left else o.right).type.isPointer := by
    split
    · assumption
    · simp_all
  have hvoid : ∀ t : Ty, t.isPointer → t.isVoid = false := by
    intro t ht
    simp [Ty.isVoid, Ty.bareCategory?, ht]
  unfold onPointer
  split
  · split
    · exact o.meets_silent (.unknown true (hvoid _ hpointer))
    · exact o.meets_silent (.unknown true (hvoid _ hpointer))
    · exact o.meets_silent (Outcome.possible_bool _ _)
    · exact o.notFor_meets .pointer
  · exact o.incompatible_meets

theorem onBool_meets : Meets o.onBool o.Ends fault := by
  unfold onBool
  split
  · split
    · exact o.meets_silent (Outcome.possible_bool _ _)
    · exact o.meets_silent (Outcome.possible_bool _ _)
    · exact o.notFor_meets .bool
  · exact o.incompatible_meets

theorem onStr_meets : Meets o.onStr o.Ends fault := by
  unfold onStr
  split
  · split
    · split
      · exact o.meets_silent (.text _)
      · exact o.meets_silent (.unknown true rfl)
    · exact o.meets_silent (Outcome.possible_bool _ _)
    · exact o.meets_silent (Outcome.possible_bool _ _)
    · exact o.notFor_meets .str
  · exact o.incompatible_meets

end Operation

/-! ## 3. Numbers -/

/-- The kind of what comes out of two kinds: the wider one, or the left one of two equal. -/
def NumberKind.promoted (left right : NumberKind) : NumberKind :=
  if left.rank < right.rank then right else left

theorem NumberKind.promoted_isInteger {left right : NumberKind} (hl : left.isInteger)
    (hr : right.isInteger) : (left.promoted right).isInteger := by
  unfold promoted
  split <;> assumption

namespace Constant

/-- Between integers a divisor that is not zero does not become zero either, in the
form of the left operand. -/
theorem remainder_of_integers {a b : Constant} (ha : a.integer?.isSome) (hb : b.integer?.isSome)
    (hz : b.isZero = false) : ∃ c, a.remainder b = .ok c := by
  have hsigned : b.toInt64 ≠ 0 := by
    intro h
    cases b with
    | bool | str | float => simp [integer?] at hb
    | signed n => simp_all [isZero, toInt64]
    | unsigned n =>
      have hn : n = 0 := by
        rw [← n.toUInt64_toInt64, show n.toInt64 = 0 from h]
        rfl
      simp [isZero, hn] at hz
  have hunsigned : b.toUInt64 ≠ 0 := by
    intro h
    cases b with
    | bool | str | float => simp [integer?] at hb
    | signed n =>
      have hn : n = 0 := by
        rw [← n.toInt64_toUInt64, show n.toUInt64 = 0 from h]
        rfl
      simp [isZero, hn] at hz
    | unsigned n => simp_all [isZero, toUInt64]
  cases a with
  | bool | str | float => simp [integer?] at ha
  | signed m => exact ⟨_, by simp only [remainder, hsigned, if_false]; rfl⟩
  | unsigned m => exact ⟨_, by simp only [remainder, hunsigned, if_false]; rfl⟩

end Constant

namespace Operation

variable (o : Operation) {fault : Prop}

theorem known?_eq_some {a b : Constant} (h : o.known? = some (a, b)) :
    o.left.known? = some a ∧ o.right.known? = some b := by
  unfold known? at h
  split at h
  · simp_all
  · simp at h

/-- A number with the constant that an operation has for it, if it has one. -/
theorem possible_number {α : Type} {kind : NumberKind} {type : Ty}
    (ht : type.numberKind? = some kind) {f : α → Constant}
    (hf : ∀ a, ∃ c : Constant, f a = c.cast kind) (known : Option α) :
    Outcome.Possible o.op.isShift (.typed type (known.map f)) := by
  cases known with
  | none => exact .unknown true (Ty.isVoid_of_numberKind ht)
  | some a =>
    obtain ⟨c, hc⟩ := hf a
    rw [Option.map_some, hc]
    exact .number ht c

theorem divided_meets {kind : NumberKind} {type : Ty} (ht : type.numberKind? = some kind)
    {fold : Constant → Constant → Except Fault Constant}
    (hfold : ∀ a b, o.known? = some (a, b) → b.isZero = false →
      (∃ c, fold a b = .ok c) ∨ fault) :
    Meets (o.divided kind type fold) (fun outcome new => o.Ends (some outcome) new) fault := by
  unfold divided
  split
  · refine meets_report_pure (.reported rfl ?_)
    cases o.known? with
    | none => exact .unknown false (Ty.isVoid_of_numberKind ht)
    | some _ => exact .zero ht
  · rename_i hz
    split
    · rename_i a b hab
      have hb : b.isZero = false := by
        rw [(o.known?_eq_some hab).2] at hz
        simpa using hz
      refine Meets.bind (P := fun _ new => new = []) ?_ ?_
      · exact meets_liftM (fun _ _ => rfl) (hfold a b hab hb)
      · rintro c _ rfl
        exact meets_pure (.silent (.number ht c))
    · exact meets_pure (.silent (.unknown true (Ty.isVoid_of_numberKind ht)))

theorem shifted_meets (op : Shift) (hop : o.op = .shift op) :
    Meets (o.shifted op) (fun outcome new => o.Ends (some outcome) new) fault := by
  unfold shifted
  split
  · split
    · exact meets_pure (.silent (.unknown false rfl))
    · refine meets_pure (.silent ?_)
      cases o.left.known? with
      | none => exact .unknown false rfl
      | some a => exact .shifted (by rw [hop]; rfl) _ _
  · exact meets_report_pure (.reported rfl (.unknown false rfl))

theorem wider_fst (left right : NumberKind) : (o.wider left right).1 = left.promoted right := by
  unfold wider NumberKind.promoted
  split <;> rfl

theorem wider_numberKind {left right : NumberKind} (hl : o.left.type.numberKind? = some left)
    (hr : o.right.type.numberKind? = some right) :
    (o.wider left right).2.numberKind? = some (o.wider left right).1 := by
  unfold wider
  split <;> assumption

/-- An outcome on which the operation goes on to end. -/
theorem meets_some {m : Check Outcome}
    (h : Meets m (fun outcome new => o.Ends (some outcome) new) fault) :
    Meets (m >>= fun outcome => pure (some outcome)) o.Ends fault :=
  h.bind fun _ _ h => meets_pure (by simpa using h)

/-- Integers are remaindered without a fault. -/
theorem remainder_ok {left right : NumberKind} (hl : o.left.type.numberKind? = some left)
    (hr : o.right.type.numberKind? = some right) (hli : left.isInteger) (hri : right.isInteger)
    {a b : Constant} (hab : o.known? = some (a, b)) (hz : b.isZero = false) :
    (∃ c, a.remainder b = .ok c) ∨ ¬(o.left.Exact ∧ o.right.Exact) := by
  by_cases he : o.left.Exact ∧ o.right.Exact
  · obtain ⟨ha, hb⟩ := o.known?_eq_some hab
    exact .inl (Constant.remainder_of_integers (he.1.isSome_integer? hl hli ha)
      (he.2.isSome_integer? hr hri hb) hz)
  · exact .inr he

theorem onNumbers_meets (sort : OperandSort)
    (hsort : sort ≠ .float → o.left.type.isFloat = false ∧ o.right.type.isFloat = false) :
    Meets (o.onNumbers sort) o.Ends ¬(o.left.Exact ∧ o.right.Exact) := by
  unfold onNumbers
  split
  · rename_i left hl
    split
    · rename_i right hr
      have ht := o.wider_numberKind hl hr
      dsimp only
      split
      · exact o.meets_silent (Outcome.possible_bool _ _)
      · have hposs := fun exact : Option Binary64 =>
          o.possible_number ht (fun x => ⟨Constant.float x, rfl⟩) exact
        split
        · exact meets_report_pure (.reported rfl (hposs _))
        · exact o.meets_silent (hposs _)
      · exact o.meets_some (o.divided_meets ht fun a b _ _ => .inl ⟨_, rfl⟩)
      · -- a remainder is only taken where floats have not decided before
        split
        · rename_i hs
          obtain ⟨hlf, hrf⟩ := hsort (by simpa using hs)
          have hli := Ty.isInteger_of_not_isFloat hl hlf
          have hri := Ty.isInteger_of_not_isFloat hr hrf
          exact o.meets_some (o.divided_meets ht fun a b hab hz =>
            o.remainder_ok hl hr hli hri hab hz)
        · exact o.notFor_meets sort
      · split
        · refine o.meets_silent (o.possible_number ht ?_ _)
          rintro ⟨a, b⟩
          exact ⟨_, rfl⟩
        · exact o.notFor_meets sort
      · rename_i op hop
        split
        · exact o.meets_some (o.shifted_meets op hop)
        · exact o.notFor_meets sort
      · exact o.notFor_meets sort
    · exact o.incompatible_meets
  · exact o.incompatible_meets

/-! ## 4. All sorts -/

/-- A sort decides about two types only if one of them is of it. -/
theorem admits_of_of? {l r : Ty} {sort : OperandSort} (h : OperandSort.of? l r = some sort) :
    (sort.admits l || sort.admits r) = true := by
  have := List.find?_some h
  exact this

/-- Integers are tried after floats. -/
theorem float_before : ∀ i : Fin OperandSort.all.length,
    OperandSort.all[i] = .unsigned ∨ OperandSort.all[i] = .signed → 12 < i.val := by
  decide

/-- Floats decide before integers do. -/
theorem not_isFloat_of_of? {l r : Ty} {sort : OperandSort} (h : OperandSort.of? l r = some sort)
    (hs : sort = .unsigned ∨ sort = .signed) : l.isFloat = false ∧ r.isFloat = false := by
  obtain ⟨-, i, hi, hsort, hbefore⟩ := List.find?_eq_some_iff_getElem.1 h
  have hlater : 12 < i := float_before ⟨i, hi⟩ (by simpa [← hsort] using hs)
  simpa [OperandSort.all, OperandSort.admits] using hbefore 12 hlater

theorem onSort_meets {sort : OperandSort}
    (h : OperandSort.of? o.left.type o.right.type = some sort) :
    Meets (o.onSort sort) o.Ends ¬(o.left.Exact ∧ o.right.Exact) := by
  cases sort with
  | func => exact o.onFunc_meets
  | array => exact o.onEqual_meets .array true
  | slice => exact o.onEqual_meets .slice true
  | struct => exact o.onEqual_meets .struct true
  | trait => exact o.onEqual_meets .trait true
  | map => exact o.onEqual_meets .map true
  | pointer => exact o.onPointer_meets (admits_of_of? h)
  | enum => exact o.incompatible_meets
  | nil => exact o.onEqual_meets .nil false
  | any => exact o.equality_meets .any
  | bool => exact o.onBool_meets
  | str => exact o.onStr_meets
  | float => exact o.onNumbers_meets .float (fun h => absurd rfl h)
  | unsigned => exact o.onNumbers_meets .unsigned fun _ => not_isFloat_of_of? h (.inl rfl)
  | signed => exact o.onNumbers_meets .signed fun _ => not_isFloat_of_of? h (.inr rfl)

/-- Opening enums changes neither the operator nor what the operands' constants are
judged by. -/
theorem outcome_meets : Meets o.outcome o.Ends ¬(o.left.Exact ∧ o.right.Exact) := by
  fun_induction outcome o with
  | case1 o => exact o.incompatible_meets
  | case2 o h => exact o.onSort_meets h
  | case3 o _ _ hl _ ih => simpa only [Value.exact_retyped hl] using ih
  | case4 o _ _ _ hr ih => simpa only [Value.exact_retyped hr] using ih
  | case5 o _ _ _ hl hr ih =>
    simpa only [Value.exact_retyped hl, Value.exact_retyped hr] using ih
  | case6 o sort _ h => exact o.onSort_meets h

end Operation

/-! ## 5. Binary operations -/

/-- The token stands for a shift. -/
def Token.Shifts (t : Token) : Prop := t.kind = .shiftLeft ∨ t.kind = .shiftRight

/-- How a binary operation at `position` ends: it fails with the one problem that refuses
it, or it makes a value, on which one problem may have been reported. -/
inductive Resolved (position : Position) (shifts : Prop) : Value → List Diagnostic → Prop
  | refused {p : Problem} (h : p.refuses) : Resolved position shifts .failed [⟨p, position⟩]
  | made {v : Value} {new : List Diagnostic}
      (hnew : new = [] ∨ ∃ p : Problem, p.refuses = false ∧ new = [⟨p, position⟩])
      (hmade : Made shifts v.type v.const) (hvoid : v.type.isVoid = false)
      (hcomponents : v.components = []) : Resolved position shifts v new

namespace Outcome

theorem finalType_none (outcome : Outcome) : outcome.finalType none = outcome.type := rfl

/-- A fixed type stays, whatever the constant is. -/
theorem finalType_fixed (type : Ty) (c const : Option Constant) :
    (fixed type c).finalType const = type := by
  simp only [finalType, fixed]
  split <;> rfl

/-- A known number takes its narrowest type. -/
theorem finalType_typed {type : Ty} {kind : NumberKind} (h : type.numberKind? = some kind)
    (c : Constant) :
    ∃ narrow, (c.cast kind).narrowestKind? = some narrow ∧
      (typed type (some (c.cast kind))).finalType (some (c.cast kind)) = Ty.number narrow := by
  obtain ⟨narrow, hn⟩ := Constant.narrowestKind?_of_isNumeric (Constant.isNumeric_cast kind c)
  refine ⟨narrow, hn, ?_⟩
  simp [finalType, typed, hn, Ty.isNumeric, h]

/-- The type that an outcome gets in the end goes with its constant. -/
theorem Possible.made {shifts : Prop} {outcome : Outcome} (h : outcome.Possible shifts) :
    Made shifts (outcome.finalType outcome.const) outcome.const ∧
      (outcome.finalType outcome.const).isVoid = false := by
  cases h with
  | unknown narrows h => exact ⟨.unknown _, h⟩
  | truth b => exact ⟨.truth rfl b, rfl⟩
  | text s => exact ⟨.text s, rfl⟩
  | @number type kind h c =>
    obtain ⟨narrow, hn, htype⟩ := finalType_typed h c
    simp only [show (typed type (some (c.cast kind))).const = some (c.cast kind) from rfl, htype]
    exact ⟨.number hn, rfl⟩
  | @zero type kind h =>
    rw [finalType_fixed]
    exact ⟨.zero h, Ty.isVoid_of_numberKind h⟩
  | shifted h kind c =>
    rw [finalType_fixed]
    exact ⟨.shifted h kind c, rfl⟩

/-- Without its constant an outcome keeps its type, which is not `void`. -/
theorem Possible.not_isVoid {shifts : Prop} {outcome : Outcome} (h : outcome.Possible shifts) :
    outcome.type.isVoid = false := by
  cases h with
  | unknown narrows h => exact h
  | truth b => rfl
  | text s => rfl
  | number h c => exact Ty.isVoid_of_numberKind h
  | zero h => exact Ty.isVoid_of_numberKind h
  | shifted h kind c => rfl

end Outcome

/-- What is known of an outcome, and of what was reported on the way to it. -/
theorem Ends.possible {position : Position} {shifts : Prop} {outcome : Outcome}
    {new : List Diagnostic} (h : Ends position shifts (some outcome) new) :
    outcome.Possible shifts ∧
      (new = [] ∨ ∃ p : Problem, p.refuses = false ∧ new = [⟨p, position⟩]) := by
  cases h with
  | reported h ho => exact ⟨ho, .inr ⟨_, h, rfl⟩⟩
  | silent ho => exact ⟨ho, .inl rfl⟩

theorem Operation.resolved_finish (o : Operation) (settings : Settings) {outcome : Outcome}
    {new : List Diagnostic} (h : o.Ends (some outcome) new) :
    Resolved o.token.position o.op.isShift (o.finish settings outcome) new := by
  obtain ⟨hposs, hnew⟩ := h.possible
  by_cases hfold : settings.foldConstants
  · obtain ⟨hmade, hvoid⟩ := hposs.made
    refine .made hnew ?_ ?_ rfl
    · simpa [finish, hfold, Value.typed] using hmade
    · simpa [finish, hfold, Value.typed] using hvoid
  · refine .made hnew ?_ ?_ rfl
    · simpa [finish, hfold] using Made.unknown _
    · simpa [finish, hfold, Value.typed, Outcome.finalType_none] using hposs.not_isVoid

theorem Token.shifts_of_isShift {t : Token} {op : Operator} (h : Operator.ofKind? t.kind = some op)
    (hop : op.isShift) : t.Shifts := by
  unfold Token.Shifts
  cases hk : t.kind <;> rw [hk] at h <;> cases h <;> simp_all [Operator.isShift]

theorem Resolved.mono {position : Position} {shifts shifts' : Prop} {v : Value}
    {new : List Diagnostic} (h : Resolved position shifts v new) (hs : shifts → shifts') :
    Resolved position shifts' v new := by
  cases h with
  | refused h => exact .refused h
  | made hnew hmade hvoid hcomponents => exact .made hnew (hmade.mono hs) hvoid hcomponents

/-- At most one problem is reported, and at the operator. -/
theorem Resolved.reports {position : Position} {shifts : Prop} {v : Value}
    {new : List Diagnostic} (h : Resolved position shifts v new) :
    new.length ≤ 1 ∧ ∀ d ∈ new, d.position = position := by
  cases h with
  | refused => simp
  | made hnew => rcases hnew with rfl | ⟨p, -, rfl⟩ <;> simp

/-- A binary operation reports at most one problem, and makes a value unless that
problem refuses it. It faults only if a constant of an operand has not the form of its
type. -/
theorem resolve_meets (settings : Settings) (left : Value) (token : Token) (right : Value) :
    Meets (resolve settings left token right) (Resolved token.position token.Shifts)
      ¬(left.Exact ∧ right.Exact) := by
  unfold resolve
  split
  · exact meets_report_pure (.refused rfl)
  · rename_i op hop
    have finished : ∀ {outcome : Outcome} {new : List Diagnostic},
        Operation.Ends ⟨left, op, token, right⟩ (some outcome) new →
        Resolved token.position token.Shifts
          (Operation.finish ⟨left, op, token, right⟩ settings outcome) new := fun h =>
      (Operation.resolved_finish _ settings h).mono (Token.shifts_of_isShift hop)
    dsimp only
    split
    · exact (Operation.logical_meets _ _).bind fun _ _ h => meets_pure (by simpa using finished h)
    · refine (Operation.outcome_meets _).bind ?_
      intro outcome new h
      cases h with
      | refused h => exact meets_pure (.refused h)
      | reported h ho => exact meets_pure (by simpa using finished (.reported h ho))
      | silent ho => exact meets_pure (by simpa using finished (.silent ho))

/-- Whatever the operands are, a binary operation makes the failed value or one that an outcome
is finished to. -/
theorem resolve_finished (settings : Settings) (left : Value) (token : Token) (right : Value) :
    Meets (resolve settings left token right)
      (fun v _ => v = .failed ∨ ∃ (o : Operation) (outcome : Outcome),
        v = o.finish settings outcome) True := by
  unfold resolve
  split
  · exact meets_report_pure (.inl rfl)
  · dsimp only
    split
    · exact (Operation.logical_meets _ _).bind fun _ _ _ => meets_pure (.inr ⟨_, _, rfl⟩)
    · refine (Operation.outcome_meets _).anyhow.bind fun outcome _ _ => ?_
      cases outcome with
      | none => exact meets_pure (.inl rfl)
      | some outcome => exact meets_pure (.inr ⟨_, _, rfl⟩)

end ExprCheck
