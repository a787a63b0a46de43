/-
ExprCheck.Proofs.Negated — known numbers with a minus in front.

The type of a negated constant goes by the constant and not by the operand: it is the
narrowest of the family that the negated constant is held in. The negation of an integer is
held as a signed word where there is one for it (`negated_of_holds`), and else as a float
(`negated_of_not_holds`).

A constant of a float type may be held as an integer, because an integer is stored in a
float type without being converted. So a minus in front of such a constant takes it out of
its type. Division shows it: `-x / 2` of integers loses its fraction.
-/
import ExprCheck.Proofs.Integers
import ExprCheck.Proofs.Returned
import ExprCheck.Proofs.Sentences

namespace ExprCheck

open Check

/-! ## 1. Constants -/

theorem NumberKind.holds_i64 (n : Int) : NumberKind.i64.Holds n ↔
    -9223372036854775808 ≤ n ∧ n ≤ 9223372036854775807 := Iff.rfl

namespace Value

variable {c : Constant}

/-- Where the signed words have the negated integer, it is one of them. -/
theorem negated_of_holds {n : Int} (h : c.integer? = some n) (hholds : NumberKind.i64.Holds (-n)) :
    negated c = .signed (.ofInt (-n)) := by
  cases c with
  | signed x =>
    cases h
    have hmin : x ≠ Int64.minValue := by
      rintro rfl
      exact absurd hholds (by decide)
    show (if x = Int64.minValue then _ else Constant.signed (-x)) = _
    rw [if_neg hmin, Int64.ofInt_neg, Int64.ofInt_toInt]
  | unsigned x =>
    cases h
    have hle : x.toNat ≤ 9223372036854775808 := by
      rw [NumberKind.holds_i64] at hholds
      omega
    exact if_pos hle
  | float | bool | str => cases h

/-- Every other number becomes a float. -/
theorem negated_of_not_holds (hc : c.isNumeric)
    (h : ∀ n, c.integer? = some n → ¬NumberKind.i64.Holds (-n)) :
    negated c = .float (-c.toFloat) := by
  cases c with
  | signed x =>
    have hmin : x = Int64.minValue := by
      have hnot := h x.toInt rfl
      have hlow := x.le_toInt
      have hhigh := x.toInt_lt
      rw [NumberKind.holds_i64] at hnot
      have hleast : Int64.minValue.toInt = -9223372036854775808 := by decide
      exact Int64.toInt_inj.1 (by omega)
    exact if_pos hmin
  | unsigned x =>
    have hgreat : ¬x.toNat ≤ 9223372036854775808 := by
      have hnot := h x.toNat rfl
      rw [NumberKind.holds_i64] at hnot
      omega
    exact if_neg hgreat
  | float x => rfl
  | bool | str => cases hc

/-! ## 2. Expressions -/

section

variable {env : Env} {minus : Token} {v : Value} {kind : NumberKind}

/-- A minus in front of a known number gives the negated constant, under its own narrowest
type. -/
theorem prefixed_minus (hfold : env.settings.foldConstants) (hminus : minus.kind = .dash)
    {own : NumberKind} (hv : v.type.numberKind? = some own) (hc : v.const = some c)
    (hkind : (negated c).narrowestKind? = some kind) :
    Silent (prefixed env minus v)
      { typed (Ty.number kind) (minus.value ++ v.text) with const := some (negated c) } := by
  have hfailed : v.isFailed = false := isFailed_of_not_isVoid (Ty.isVoid_of_numberKind hv)
  have hnumeric : v.type.isNumeric = true := by simp [Ty.isNumeric, hv]
  have hknown : v.known? = some c := by
    rw [Value.known?, Ty.isPure_of_numberKind hv, if_pos rfl, hc]
  unfold prefixed
  simp only [hfailed, hfold, hminus, hknown, prefixedConst?, hnumeric, hkind, Bool.false_eq_true,
    if_false, if_true, Option.map_some, Option.bind_some]
  exact runs_pure _

end

end Value

/-- A phrase of a known number with a minus in front, whatever brackets stand around them, has
the negated constant, under its own narrowest type. -/
theorem evaluate_minus {env : Env} (hfold : env.settings.foldConstants) {minus : Token}
    (hminus : minus.kind = .dash) {ts : List Token} {e : Expr} (he : Derives .unary ts e)
    {v : Value} (hv : Evaluates env e v []) {own : NumberKind}
    (hown : v.type.numberKind? = some own) {c : Constant} (hc : v.const = some c)
    {operand negation span : List Token} (hoperand : Token.Bracketed ts operand)
    (hnegation : Token.Bracketed (minus :: operand) negation)
    (hspan : Token.withoutEof span = negation) :
    ∃ kind text, (Value.negated c).narrowestKind? = some kind ∧
      Silent (evaluate env span)
        { Value.typed (Ty.number kind) text with const := some (Value.negated c) } := by
  obtain ⟨kind, hkind⟩ := Constant.narrowestKind?_of_isNumeric (Value.isNumeric_negated c)
  have hvoid : v.type.isVoid = false := Ty.isVoid_of_numberKind hown
  obtain ⟨e', text, he', hv'⟩ := hoperand.evaluates he hv hvoid
  have hprefixed : Evaluates env (.prefixed minus e') _ [] :=
    .prefixed hv' (Value.isFailed_of_not_isVoid hvoid)
      (Value.prefixed_minus hfold hminus hown hc hkind)
  obtain ⟨e'', text', he'', hv''⟩ := hnegation.evaluates (.prefixed (.inl hminus) he') hprefixed
    (Ty.isVoid_of_numberKind (Ty.numberKind?_number kind))
  have hsentence : Derives .or (Token.withoutEof span) e'' := by
    rw [hspan]
    exact he''.loosen (by decide)
  refine ⟨kind, text', hkind, ?_⟩
  rw [hsentence.evaluate_span]
  exact Expr.evaluates_iff_runs.1 hv''

/-- A float is narrowed to a float type. -/
theorem Constant.isFloat_of_narrowestKind {x : Binary64} {kind : NumberKind}
    (h : (Constant.float x).narrowestKind? = some kind) : kind.isFloat := by
  cases hkind : kind.isFloat with
  | true => rfl
  | false =>
    obtain ⟨n, hn, -⟩ := holds_narrowestKind h (by simp [NumberKind.isInteger, hkind])
    cases hn

/-- In front of a name of a float type that stands for a known number, as declared constants do,
a minus gives a float unless the number is held as an integer and the signed words have its
negation. Then it gives that integer, under the narrowest signed type that has it. It does not
matter what brackets stand around the name and around the whole. -/
theorem evaluate_minus_float {env : Env} (hfold : env.settings.foldConstants) {x minus : Token}
    (hx : x.kind = .identifier) (hminus : minus.kind = .dash) {v : Value}
    (hdeclared : env.scope.get? x.value = some v) (hfloat : v.type.isFloat) {c : Constant}
    (hconst : v.const = some c) (hc : c.isNumeric) {operand negation span : List Token}
    (hoperand : Token.Bracketed [x] operand)
    (hnegation : Token.Bracketed (minus :: operand) negation)
    (hspan : Token.withoutEof span = negation) :
    ∃ w, Silent (evaluate env span) w ∧
      (∀ n, c.integer? = some n → NumberKind.i64.Holds (-n) → w.Narrowed .i64 (-n)) ∧
      ((∀ n, c.integer? = some n → ¬NumberKind.i64.Holds (-n)) →
        w.type.isFloat ∧ w.const = some (.float (-c.toFloat))) := by
  obtain ⟨own, hown, -⟩ := (Option.any_eq_true _ _).1 hfloat
  have hname : Evaluates env (.name x) v [] := by
    refine .name ?_
    rw [Value.name, hdeclared]
    exact runs_pure v
  obtain ⟨kind, text, hkind, hrun⟩ := evaluate_minus hfold hminus
    ((Derives.name hx).loosen (by decide)) hname hown hconst hoperand hnegation hspan
  refine ⟨_, hrun, fun n hn hholds => ?_, fun hnone => ?_⟩
  · have hnegated := Value.negated_of_holds hn hholds
    have hinteger : (Value.negated c).integer? = some (-n) := by
      rw [NumberKind.holds_i64] at hholds
      rw [hnegated, Constant.integer?, Int64.toInt_ofInt_of_le hholds.1 (by omega)]
    have hheld : (Value.negated c).HeldAs .i64 := by
      rw [hnegated]
      rfl
    obtain ⟨narrow, hnarrow, hnarrowest⟩ := Constant.narrowest_narrowestKind hheld hinteger
    rw [hkind, Option.some.injEq] at hnarrow
    exact ⟨_, kind, rfl, hinteger, hheld, rfl, hnarrow ▸ hnarrowest⟩
  · have hnegated := Value.negated_of_not_holds hc hnone
    rw [hnegated] at hkind
    have htype : (Ty.number kind).isFloat := by
      rw [Ty.isFloat, Ty.numberKind?_number, Option.any_some]
      exact Constant.isFloat_of_narrowestKind hkind
    exact ⟨htype, congrArg some hnegated⟩

/-- The least integer that has no negation in 64 bits. -/
theorem evaluate_minus_float_great :
    let x := Token.synthetic .identifier "x"
    let minus := Token.synthetic .dash "-"
    let opening := Token.synthetic .openParen "("
    let closing := Token.synthetic .closeParen ")"
    let c := Constant.unsigned 9223372036854775809
    let env : Env := ⟨Scope.empty.declareConst "x" (Ty.number .f64) c, .default⟩
    env.settings.foldConstants ∧ c.isNumeric ∧ Token.Bracketed [x] [opening, x, closing] ∧
      ∃ w, Silent (evaluate env [minus, opening, x, closing]) w ∧ w.type.isFloat ∧
        w.const = some (.float (-c.toFloat)) := by
  intro x minus opening closing c env
  have hoperand : Token.Bracketed [x] [opening, x, closing] := .around rfl .bare rfl
  have hdeclared : env.scope.get? x.value =
      some { Value.ofConstant (Ty.number .f64) c with text := "x" } := rfl
  have hnone : ∀ n, c.integer? = some n → ¬NumberKind.i64.Holds (-n) := by
    rintro _ ⟨⟩
    decide
  have hspan : Token.withoutEof [minus, opening, x, closing] = [minus, opening, x, closing] := rfl
  have hminus : minus.kind = .dash := rfl
  obtain ⟨w, hw, -, hgreat⟩ :=
    evaluate_minus_float rfl rfl hminus hdeclared rfl rfl rfl hoperand .bare hspan
  exact ⟨rfl, rfl, hoperand, w, hw, hgreat hnone⟩

/-- A constant of a float type, stored there as the integer that it is initialized with. -/
theorem minus_leaves_float :
    let x := Token.synthetic .identifier "x"
    let minus := Token.synthetic .dash "-"
    let t := Ty.number .f32
    let c := Constant.signed 5
    let env : Env := ⟨Scope.empty.declareConst "x" t c, .default⟩
    env.settings.foldConstants ∧ t.isFloat ∧
      Silent (checkAssign false t ⟨Value.ofConstant (Ty.number .i8) c, .null, false⟩) () ∧
      ∃ w, Silent (evaluate env [minus, x]) w ∧ w.type = Ty.number .i8 ∧
        w.type.isFloat = false := by
  intro x minus t c env
  have hstored : (Value.ofConstant (Ty.number .i8) c).misfits t .null = [] := by decide +kernel
  have hassigned := checkAssign_run t (Value.ofConstant (Ty.number .i8) c) .null
  rw [hstored] at hassigned
  have hname : Evaluates env (.name x) { Value.ofConstant t c with text := "x" } [] :=
    .name (runs_pure _)
  have hminus : minus.kind = .dash := rfl
  have hspan : Token.withoutEof [minus, x] = [minus, x] := rfl
  obtain ⟨kind, text, hkind, hrun⟩ := evaluate_minus rfl hminus
    ((Derives.name rfl).loosen (by decide)) hname (Ty.numberKind?_number .f32) rfl .bare .bare hspan
  cases hkind
  exact ⟨rfl, rfl, hassigned, _, hrun, rfl, rfl⟩

end ExprCheck
