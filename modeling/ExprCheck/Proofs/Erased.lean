/-
ExprCheck.Proofs.Erased — operations on operands that are not known.

Whether an operation is refused, and of which type its value is up to the width of a number,
depends on the types of the operands and not on what is known of them (`resolve_erased`). A
shift is left out, because its amount chooses the type.

Every operation is compared with the same one on operands whose constants are erased, so one
of the two runs never folds. `Check.Concurs` sets the runs side by side: they report the same,
but for the two problems that only known operands have, a result out of range and a divisor of
zero. Operations with the same operands up to constants are then compared by way of the
erased one.

Folding is where the type could come to differ, since it is taken from what was folded. A cast
keeps the family of the kind that it is made to, and the narrowest kind of what was cast is of
that family (`widest_narrowestKind`).
-/
import ExprCheck.Proofs.Alike
import ExprCheck.Proofs.Folding

namespace ExprCheck

open Check

/-! ## 1. Two runs side by side -/

/-- Only operands that are known have the problem. -/
def Problem.needsConstants : Problem → Bool
  | .overflow | .divideByZero => true
  | _ => false

/-- The reports, without the problems that only known operands have. -/
def Diagnostic.legal (new : List Diagnostic) : List Diagnostic :=
  new.filter fun d => !d.problem.needsConstants

namespace Check

/-- Both checks run, report the same but for the problems that only known operands have, and
yield results that `R` relates. -/
def Concurs (R : α → β → Prop) (m : Check α) (m' : Check β) : Prop :=
  ∃ a new b more, Runs m a new ∧ Runs m' b more ∧ R a b ∧
    Diagnostic.legal new = Diagnostic.legal more

variable {R : α → β → Prop} {m : Check α} {m' : Check β}

theorem concurs_pure {a : α} {b : β} (h : R a b) : Concurs R (pure a) (pure b) :=
  ⟨a, [], b, [], runs_pure a, runs_pure b, h, rfl⟩

/-- A check that does not fault concurs with itself. -/
theorem concurs_self {R : α → α → Prop} (h : RunsUnless m False) (hR : ∀ a, R a a) :
    Concurs R m m := by
  obtain ⟨a, new, hrun⟩ := h.exists_run not_false
  exact ⟨a, new, a, new, hrun, hrun, hR a, rfl⟩

/-- A problem that only one of the runs has. -/
theorem Concurs.report {p : Problem} (hp : p.needsConstants) (pos : Position)
    (h : Concurs R m m') : Concurs R (report p pos >>= fun _ => m) m' := by
  obtain ⟨a, new, b, more, hm, hm', hR, hnew⟩ := h
  refine ⟨a, _, b, more, (runs_report p pos).bind hm, hm', hR, ?_⟩
  rw [← hnew, List.singleton_append, Diagnostic.legal, List.filter_cons_of_neg (by simp [hp])]
  rfl

theorem Concurs.bind {S : γ → δ → Prop} {f : α → Check γ} {f' : β → Check δ}
    (h : Concurs R m m') (hf : ∀ a b, R a b → Concurs S (f a) (f' b)) :
    Concurs S (m >>= f) (m' >>= f') := by
  obtain ⟨a, new, b, more, hm, hm', hR, hnew⟩ := h
  obtain ⟨c, own, d, own', hc, hd, hS, hown⟩ := hf a b hR
  refine ⟨c, _, d, _, hm.bind hc, hm'.bind hd, hS, ?_⟩
  simp only [Diagnostic.legal, List.filter_append] at hnew hown ⊢
  rw [hnew, hown]

/-- What is known of the one run and of the other. -/
theorem Concurs.and_meets {P : α → List Diagnostic → Prop} {Q : β → List Diagnostic → Prop}
    {fault fault' : Prop} (h : Concurs R m m') (hm : Meets m P fault) (hm' : Meets m' Q fault') :
    Concurs (fun a b => R a b ∧ (∃ new, P a new) ∧ ∃ more, Q b more) m m' := by
  obtain ⟨a, new, b, more, ha, hb, hR, hnew⟩ := h
  exact ⟨a, new, b, more, ha, hb, ⟨hR, ⟨new, hm.of_runs ha⟩, ⟨more, hm'.of_runs hb⟩⟩, hnew⟩

/-- Checks that concur with the same one concur with each other. -/
theorem Concurs.common {α γ : Type} {f : α → γ} {m m' k : Check α}
    (h : Concurs (fun a b => f a = f b) m k) (h' : Concurs (fun a b => f a = f b) m' k) :
    Concurs (fun a b => f a = f b) m m' := by
  obtain ⟨a, new, c, own, ha, hc, hac, hnew⟩ := h
  obtain ⟨b, more, d, own', hb, hd, hbd, hmore⟩ := h'
  obtain ⟨rfl, rfl⟩ := hc.unique hd
  exact ⟨a, new, b, more, ha, hb, hac.trans hbd.symm, hnew.trans hmore.symm⟩

end Check

/-! ## 2. Values without their constants -/

/-- The value as one that is not known. -/
def Value.erased (v : Value) : Value := { v with const := none }

@[simp] theorem Value.erased_type (v : Value) : v.erased.type = v.type := rfl

@[simp] theorem Value.known?_erased (v : Value) : v.erased.known? = none := by
  unfold known? erased
  split <;> rfl

/-- The outcomes are of one type. -/
def Outcome.SameType (x y : Outcome) : Prop := x.type = y.type

namespace Operation

/-- The operation on operands that are not known. -/
def erased (o : Operation) : Operation :=
  { o with left := o.left.erased, right := o.right.erased }

@[simp] theorem erased_left (o : Operation) : o.erased.left = o.left.erased := rfl
@[simp] theorem erased_right (o : Operation) : o.erased.right = o.right.erased := rfl
@[simp] theorem erased_op (o : Operation) : o.erased.op = o.op := rfl

@[simp] theorem known?_erased (o : Operation) : o.erased.known? = none := by
  simp [known?]

/-- Checks that yield outcomes of one type, if they yield any. -/
abbrev Concurring : Check (Option Outcome) → Check (Option Outcome) → Prop :=
  Concurs (Option.Rel Outcome.SameType)

variable (o : Operation)

theorem concurring_some {x y : Outcome} (h : x.SameType y) :
    Concurring (pure (some x)) (pure (some y)) :=
  concurs_pure (.some h)

/-- What does not ask for constants concurs with itself. -/
theorem concurring_self {m : Check (Option Outcome)} (h : Meets m o.Ends False) :
    Concurring m m := by
  refine concurs_self (h.mono (fun _ _ _ => trivial) id) fun outcome => ?_
  cases outcome with
  | none => exact .none
  | some x => exact .some rfl

/-! ## 3. Operations on one sort -/

theorem incompatible_erased : Concurring o.incompatible o.erased.incompatible :=
  o.concurring_self o.incompatible_meets

theorem notFor_erased (sort : OperandSort) : Concurring (o.notFor sort) (o.erased.notFor sort) :=
  o.concurring_self (o.notFor_meets sort)

theorem onEqual_erased (sort : OperandSort) (ignoreAny : Bool) :
    Concurring (o.onEqual sort ignoreAny) (o.erased.onEqual sort ignoreAny) :=
  o.concurring_self (o.onEqual_meets sort ignoreAny)

theorem onPointer_erased (h : o.left.type.isPointer || o.right.type.isPointer) :
    Concurring o.onPointer o.erased.onPointer := by
  have hsame : o.erased.onPointer = o.onPointer := by
    unfold onPointer
    simp only [apply_ite Value.type]
    rfl
  rw [hsame]
  exact o.concurring_self (o.onPointer_meets h)

theorem onBool_erased : Concurring o.onBool o.erased.onBool := by
  have hcompatible : o.erased.compatible true = o.compatible true := rfl
  unfold onBool
  rw [hcompatible, erased_op]
  split
  · split
    · exact concurring_some rfl
    · exact concurring_some rfl
    · exact o.notFor_erased .bool
  · exact o.incompatible_erased

theorem onStr_erased : Concurring o.onStr o.erased.onStr := by
  unfold onStr
  rw [known?_erased, erased_left, erased_right, erased_op, Value.erased_type, Value.erased_type]
  split
  · split
    · split <;> exact concurring_some rfl
    · exact concurring_some rfl
    · exact concurring_some rfl
    · exact o.notFor_erased .str
  · exact o.incompatible_erased

/-! ## 4. Numbers -/

variable {left right : NumberKind}

/-- A divisor of zero is reported, and the type is that of any other quotient. -/
theorem divided_erased {kind : NumberKind} {type : Ty}
    {fold : Constant → Constant → Except Fault Constant}
    (hfold : ∀ a b, o.known? = some (a, b) → b.isZero = false → ∃ c, fold a b = .ok c) :
    Concurs Outcome.SameType (o.divided kind type fold) (o.erased.divided kind type fold) := by
  have herased : o.erased.divided kind type fold = pure (.typed type none) := by
    simp [divided]
  rw [herased, divided]
  split
  · exact .report rfl _ (concurs_pure rfl)
  · rename_i hz
    split
    · rename_i a b hab
      have hb : b.isZero = false := by
        rw [(o.known?_eq_some hab).2] at hz
        simpa using hz
      obtain ⟨c, hc⟩ := hfold a b hab hb
      rw [hc]
      exact concurs_pure rfl
    · exact concurs_pure rfl

/-- Of two numbers the wider one gives the type, known or not. -/
theorem onNumbers_erased (sort : OperandSort) (hop : o.op.isShift = false)
    (hsort : sort ≠ .float → o.left.type.isFloat = false ∧ o.right.type.isFloat = false)
    (hexact : o.op = .remainder → o.left.Exact ∧ o.right.Exact) :
    Concurring (o.onNumbers sort) (o.erased.onNumbers sort) := by
  unfold onNumbers
  rw [erased_left, erased_right, erased_op, Value.erased_type, Value.erased_type]
  cases hl : o.left.type.numberKind? with
  | none => exact o.incompatible_erased
  | some left =>
    cases hr : o.right.type.numberKind? with
    | none => exact o.incompatible_erased
    | some right =>
      have hwider : o.erased.wider left right = o.wider left right := rfl
      have some_of {m m' : Check Outcome} (h : Concurs Outcome.SameType m m') :
          Concurring (m >>= fun x => pure (some x)) (m' >>= fun x => pure (some x)) :=
        h.bind fun _ _ h => concurring_some h
      dsimp only
      rw [hwider, known?_erased]
      cases ho : o.op with
      | compare op => exact concurring_some rfl
      | arithmetic op =>
        simp only [Option.map_none, Option.any_none, Bool.and_false, Bool.false_eq_true, if_false]
        split
        · exact .report rfl _ (concurring_some rfl)
        · exact concurring_some rfl
      | divide => exact some_of (o.divided_erased fun a b _ _ => ⟨_, rfl⟩)
      | remainder =>
        dsimp only
        split
        · rename_i hs
          obtain ⟨hlf, hrf⟩ := hsort (by simpa using hs)
          have hli := Ty.isInteger_of_not_isFloat hl hlf
          have hri := Ty.isInteger_of_not_isFloat hr hrf
          obtain ⟨hle, hre⟩ := hexact ho
          refine some_of (o.divided_erased fun a b hab hz => ?_)
          obtain ⟨ha, hb⟩ := o.known?_eq_some hab
          exact Constant.remainder_of_integers (hle.isSome_integer? hl hli ha)
            (hre.isSome_integer? hr hri hb) hz
        · exact o.notFor_erased sort
      | bitwise op =>
        dsimp only
        split
        · exact concurring_some rfl
        · exact o.notFor_erased sort
      | shift op => simp [ho, Operator.isShift] at hop
      | logical op => exact o.notFor_erased sort

/-! ## 5. All sorts -/

theorem onSort_erased {sort : OperandSort}
    (h : OperandSort.of? o.left.type o.right.type = some sort) (hop : o.op.isShift = false)
    (hexact : o.op = .remainder → o.left.Exact ∧ o.right.Exact) :
    Concurring (o.onSort sort) (o.erased.onSort sort) := by
  cases sort with
  | func => exact o.concurring_self o.onFunc_meets
  | array => exact o.onEqual_erased .array true
  | slice => exact o.onEqual_erased .slice true
  | struct => exact o.onEqual_erased .struct true
  | trait => exact o.onEqual_erased .trait true
  | map => exact o.onEqual_erased .map true
  | pointer => exact o.onPointer_erased (admits_of_of? h)
  | enum => exact o.incompatible_erased
  | nil => exact o.onEqual_erased .nil false
  | any => exact o.concurring_self (o.equality_meets .any)
  | bool => exact o.onBool_erased
  | str => exact o.onStr_erased
  | float => exact o.onNumbers_erased .float hop (fun h => absurd rfl h) hexact
  | unsigned =>
    exact o.onNumbers_erased .unsigned hop (fun _ => not_isFloat_of_of? h (.inl rfl)) hexact
  | signed =>
    exact o.onNumbers_erased .signed hop (fun _ => not_isFloat_of_of? h (.inr rfl)) hexact

/-- Enums are opened alike, since that goes by the types. -/
theorem outcome_erased (hop : o.op.isShift = false)
    (hexact : o.op = .remainder → o.left.Exact ∧ o.right.Exact) :
    Concurring o.outcome o.erased.outcome := by
  fun_induction outcome o with
  | case1 o h =>
    rw [outcome, erased_left, erased_right, Value.erased_type, Value.erased_type, h]
    exact o.incompatible_erased
  | case2 o h hl hr =>
    rw [@outcome_enum o.erased h, erased_left, erased_right, Value.erased_type, Value.erased_type,
      hl, hr]
    exact o.incompatible_erased
  | case3 o h left hl hr ih =>
    rw [@outcome_enum o.erased h, erased_left, erased_right, Value.erased_type, Value.erased_type,
      hl, hr]
    exact ih hop fun ho => ⟨(Value.exact_retyped hl).2 (hexact ho).1, (hexact ho).2⟩
  | case4 o h right hl hr ih =>
    rw [@outcome_enum o.erased h, erased_left, erased_right, Value.erased_type, Value.erased_type,
      hl, hr]
    exact ih hop fun ho => ⟨(hexact ho).1, (Value.exact_retyped hr).2 (hexact ho).2⟩
  | case5 o h left right hl hr ih =>
    rw [@outcome_enum o.erased h, erased_left, erased_right, Value.erased_type, Value.erased_type,
      hl, hr]
    exact ih hop fun ho =>
      ⟨(Value.exact_retyped hl).2 (hexact ho).1, (Value.exact_retyped hr).2 (hexact ho).2⟩
  | case6 o sort hne h =>
    have hsort : o.erased.outcome = o.erased.onSort sort := by
      rw [outcome, erased_left, erased_right, Value.erased_type, Value.erased_type, h]
      cases sort with
      | enum => exact absurd rfl hne
      | _ => rfl
    rw [hsort]
    exact o.onSort_erased h hop hexact

theorem logical_erased (op : Logical) :
    Concurs Outcome.SameType (o.logical op) (o.erased.logical op) := by
  unfold logical
  rw [known?_erased, erased_left, erased_right, Value.erased_type, Value.erased_type]
  split
  · exact concurs_self (meets_report_pure trivial) fun _ => rfl
  · split <;> exact concurs_pure rfl

end Operation

/-! ## 6. Widths -/

/-- The type, with a number as wide as its family goes. -/
def Ty.widest (t : Ty) : Ty :=
  match t.numberKind? with
  | some kind => number kind.widest
  | none => t

theorem Ty.widest_of_numberKind {t : Ty} {kind : NumberKind} (h : t.numberKind? = some kind) :
    t.widest = number kind.widest := by
  rw [widest, h]

/-- What was cast to a kind has a narrowest kind of the same family. -/
theorem Constant.widest_narrowestKind {kind narrow : NumberKind} {c : Constant}
    (h : (c.cast kind).narrowestKind? = some narrow) : narrow.widest = kind.widest := by
  have hsigned (bits : Nat) : (NumberKind.signedOfBits bits).widest = .i64 := by
    unfold NumberKind.signedOfBits
    repeat' split
    all_goals rfl
  have hunsigned (bits : Nat) : (NumberKind.unsignedOfBits bits).widest = .u64 := by
    unfold NumberKind.unsignedOfBits
    repeat' split
    all_goals rfl
  have hfloat (bits : Nat) : (NumberKind.floatOfBits bits).widest = .f64 := by
    unfold NumberKind.floatOfBits
    split <;> rfl
  cases kind <;> cases h
  case f32 | f64 => exact hfloat _
  case i8 | i16 | i32 | i64 => exact hsigned _
  case u8 | u16 | u32 | u64 => exact hunsigned _

/-- An outcome keeps its family when its constant narrows the type. -/
theorem Outcome.Possible.widest_finalType {shifts : Prop} {outcome : Outcome}
    (h : outcome.Possible shifts) :
    (outcome.finalType outcome.const).widest = outcome.type.widest := by
  cases h with
  | unknown => rfl
  | truth => rfl
  | text => rfl
  | number h c =>
    obtain ⟨narrow, hnarrow, htype⟩ := Outcome.finalType_typed h c
    rw [show (Outcome.typed _ (some (c.cast _))).const = some (c.cast _) from rfl, htype,
      Ty.widest_of_numberKind (Ty.numberKind?_number narrow),
      Constant.widest_narrowestKind hnarrow]
    exact (Ty.widest_of_numberKind h).symm
  | zero | shifted =>
    rw [Outcome.finalType_fixed]
    rfl

theorem Operation.widest_finish (o : Operation) (settings : Settings) {shifts : Prop}
    {outcome : Outcome} (h : outcome.Possible shifts) :
    (o.finish settings outcome).type.widest = outcome.type.widest := by
  unfold finish
  cases settings.foldConstants with
  | true => exact h.widest_finalType
  | false => rfl

/-! ## 7. Binary operations -/

/-- The values are of one type, up to the width of a number. -/
def Value.SameFamily (v w : Value) : Prop := v.type.widest = w.type.widest

/-- Possible outcomes of one type make values of one family. -/
theorem Operation.sameFamily_finish (o o' : Operation) (settings : Settings) {x y : Outcome}
    {new more : List Diagnostic} (h : x.SameType y) (hx : o.Ends (some x) new)
    (hy : o'.Ends (some y) more) :
    (o.finish settings x).SameFamily (o'.finish settings y) := by
  unfold Value.SameFamily
  rw [o.widest_finish settings hx.possible.1, o'.widest_finish settings hy.possible.1, h]

/-- An operation that is no shift goes like the one on operands that are not known. -/
theorem resolve_concurs (settings : Settings) {left right : Value} {token : Token}
    (hshift : ¬token.Shifts)
    (hexact : token.kind = .percent → left.Exact ∧ right.Exact) :
    Concurs Value.SameFamily (resolve settings left token right)
      (resolve settings left.erased token right.erased) := by
  unfold resolve
  cases hop : Operator.ofKind? token.kind with
  | none => exact concurs_self (meets_report_pure trivial) fun _ => rfl
  | some op =>
    have hnoShift : op.isShift = false := by
      cases hs : op.isShift with
      | false => rfl
      | true => exact absurd (Token.shifts_of_isShift hop hs) hshift
    have hremainder : op = .remainder → left.Exact ∧ right.Exact := by
      rintro rfl
      refine hexact ?_
      cases hk : token.kind <;> rw [hk] at hop <;> cases hop
    let o : Operation := ⟨left, op, token, right⟩
    dsimp only
    split
    · rename_i logical
      have hends (o : Operation) :
          Meets (o.logical logical) (fun x new => o.Ends (some x) new) False :=
        o.logical_meets logical
      refine ((o.logical_erased logical).and_meets (hends o) (hends o.erased)).bind ?_
      rintro x y ⟨h, ⟨_, hx⟩, ⟨_, hy⟩⟩
      exact concurs_pure (o.sameFamily_finish o.erased settings h hx hy)
    · refine ((o.outcome_erased hnoShift hremainder).and_meets o.outcome_meets
        o.erased.outcome_meets).bind ?_
      rintro _ _ ⟨h | _, ⟨_, hx⟩, ⟨_, hy⟩⟩
      · exact concurs_pure (o.sameFamily_finish o.erased settings h hx hy)
      · exact concurs_pure rfl

/-- The value, without its constant where that is asked. -/
def Value.erasedIf (v : Value) (erase : Bool) : Value := if erase then v.erased else v

theorem Value.erased_erasedIf (v : Value) (erase : Bool) :
    (v.erasedIf erase).erased = v.erased := by
  cases erase <;> rfl

theorem Value.Exact.erasedIf {v : Value} (h : v.Exact) (erase : Bool) :
    (v.erasedIf erase).Exact := by
  cases erase with
  | false => exact h
  | true => rintro c ⟨⟩

/-- Whether the operands are known, the left one, the right one or both, decides neither whether
an operation that is no shift is refused nor of which type its value is, up to the width of a
number: with the constants and without them the checks run, report the same but for a result
out of range and a divisor of zero, and yield values of one family. Only a remainder asks that
integer types have integers. -/
theorem resolve_erased (settings : Settings) {left right : Value} {token : Token}
    (hshift : ¬token.Shifts) (hexact : token.kind = .percent → left.Exact ∧ right.Exact)
    (eraseLeft eraseRight : Bool) :
    Concurs Value.SameFamily (resolve settings left token right)
      (resolve settings (left.erasedIf eraseLeft) token (right.erasedIf eraseRight)) := by
  have hknown := resolve_concurs settings hshift hexact
  have hexact' : token.kind = .percent →
      (left.erasedIf eraseLeft).Exact ∧ (right.erasedIf eraseRight).Exact := fun h =>
    ⟨(hexact h).1.erasedIf eraseLeft, (hexact h).2.erasedIf eraseRight⟩
  have herased := resolve_concurs settings hshift hexact'
  rw [left.erased_erasedIf, right.erased_erasedIf] at herased
  exact hknown.common herased

/-- A remainder by a number that is known to be zero, and by one that is not known. -/
theorem resolve_erased_remainder :
    let left := Value.ofConstant (Ty.number .i16) (.signed (-300))
    let right := Value.ofConstant (Ty.number .u8) (.unsigned 0)
    let percent := Token.synthetic .percent "%"
    ¬percent.Shifts ∧ (left.Exact ∧ right.Exact) ∧
      Concurs Value.SameFamily (resolve .default left percent right)
        (resolve .default left percent right.erased) := by
  intro left right percent
  have hshift : ¬percent.Shifts := by
    rintro (h | h) <;> cases h
  have hexact : left.Exact ∧ right.Exact := by
    constructor <;>
    · rintro _ ⟨⟩ -
      rfl
  exact ⟨hshift, hexact, resolve_erased .default hshift (fun _ => hexact) false true⟩

end ExprCheck
