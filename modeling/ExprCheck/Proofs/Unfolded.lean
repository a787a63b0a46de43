/-
ExprCheck.Proofs.Unfolded — what is known where nothing is folded.

Without folding no operator and no call makes a constant, so a constant is one that is written
out, or that a name stands for, and brackets are all that it can come through. The recursion
is on how the span derives (`Derives.bracketed_of_const`), because a tree does not keep its
closing brackets.

There is one more way through. An operator in front of a failed operand hands the operand on
as it is, whatever it is. What fails by itself has no constant, but a name may stand for a
value that counts as failed, of type `void` and without a text, and has one. Such a value comes
through any number of signs, folding or not (`Derives.signs_of_failed`).
-/
import ExprCheck.Proofs.Sentences

namespace ExprCheck

open Check

/-! ## 1. Nodes -/

namespace Value

theorem const_failed : failed.const = none := rfl

theorem prefixed_unfolded {env : Env} (hfold : env.settings.foldConstants = false)
    (operator : Token) {operand : Value} (h : operand.isFailed = false) :
    Meets (Value.prefixed env operator operand) (fun v _ => v.const = none) False := by
  unfold Value.prefixed
  simp only [h, hfold, Bool.false_eq_true, if_false]
  split
  · exact meets_report_pure const_failed
  · rename_i const hconst
    refine meets_pure ?_
    -- a prefix operator makes a constant of a constant only
    unfold prefixedConst? at hconst
    split at hconst
    · split at hconst
      · exact (Option.some.inj hconst).symm
      · cases hconst
    · split at hconst
      · exact (Option.some.inj hconst).symm
      · cases hconst
    · cases hconst

theorem call_unfolded {callee : Value} (opening : Token) (args : List Incoming)
    (h : callee.isFailed = false) :
    Meets (Value.call callee opening args) (fun v _ => v.const = none) False := by
  refine (call_typed opening args h).mono (fun v _ hv => ?_) id
  obtain ⟨rfl, -⟩ | ⟨type, inner, rfl⟩ := hv
  · exact const_failed
  · rfl

end Value

theorem Operation.unfolded_finish (o : Operation) {settings : Settings}
    (hfold : settings.foldConstants = false) (outcome : Outcome) :
    (o.finish settings outcome).const = none := by
  simp [finish, hfold]

theorem resolve_unfolded {settings : Settings} (hfold : settings.foldConstants = false)
    (left : Value) (token : Token) (right : Value) :
    Meets (resolve settings left token right) (fun v _ => v.const = none) True := by
  refine (resolve_finished settings left token right).mono (fun v _ hv => ?_) id
  obtain rfl | ⟨o, outcome, rfl⟩ := hv
  · exact Value.const_failed
  · exact o.unfolded_finish hfold outcome

/-! ## 2. Phrases -/

/-- What a node makes has no constant where it failed. -/
theorem Produced.not_known {shifts : Prop} {v : Value} {new : List Diagnostic}
    (h : Produced shifts v new) (hf : v.isFailed) {c : Constant} : v.const ≠ some c := by
  rw [(h.reported hf).1]
  simp [Value.const_failed]

/-- Tokens that have a constant by themselves, or stand for what may have one. -/
def Token.Kind.constants : List Token.Kind := [.number, .string, .trueWord, .falseWord, .identifier]

/-- The only literal without a constant is `nil`. -/
theorem Value.kind_of_const {t : Token} (ht : t.kind ∈ [.string, .trueWord, .falseWord, .nilWord])
    {c : Constant} (hc : (Value.ofLiteral t).const = some c) : t.kind ∈ Token.Kind.constants := by
  simp only [List.mem_cons, List.not_mem_nil, or_false] at ht
  rcases ht with ht | ht | ht | ht
  · simp [ht, Token.Kind.constants]
  · simp [ht, Token.Kind.constants]
  · simp [ht, Token.Kind.constants]
  · simp [Value.ofLiteral, ht, Value.nil, Value.typed] at hc

section

variable {env : Env} {c : Constant}

mutual

/-- What has a constant is a token that has one, in brackets. -/
theorem Derives.bracketed_of_const (hfold : env.settings.foldConstants = false)
    {n : Nonterminal} {ts : List Token} {e : Expr} {v : Value} {new : List Diagnostic} :
    Derives n ts e → Evaluates env e v new → v.isFailed = false → v.const = some c →
      ∃ t, t.kind ∈ Token.Kind.constants ∧ Token.Bracketed [t] ts
  | .tighter _ h, he, hf, hc => h.bracketed_of_const hfold he hf hc
  | .binary .., he, _, hc => by
    cases he with
    | binaryFailed => cases hc
    | binary _ _ _ _ hv => simp [(resolve_unfolded hfold _ _ _).of_runs hv] at hc
  | .prefixed .., he, hf, hc => by
    cases he with
    | prefixFailed _ hfailed => simp [hf] at hfailed
    | prefixed _ hw hv => simp [(Value.prefixed_unfolded hfold _ hw).of_runs hv] at hc
  | .call .., he, _, hc => by
    cases he with
    | callFailed => cases hc
    | call _ _ hw hv => simp [(Value.call_unfolded _ _ hw).of_runs hv] at hc
  | .number ht, _, _, _ | .name ht, _, _, _ => ⟨_, by simp [ht, Token.Kind.constants], .bare⟩
  | .literal ht, he, _, hc => by
    cases he
    exact ⟨_, Value.kind_of_const ht hc, .bare⟩
  | .group ho hi hclosing, he, _, hc => by
    cases he with
    | groupFailed => cases hc
    | tuple => cases hc
    | grouped hs hw =>
      obtain ⟨t, ht, hbracketed⟩ := hi.bracketed_of_const hfold hs hw hc
      exact ⟨t, ht, .around ho hbracketed hclosing⟩

/-- The same of the one item of a list. -/
theorem DerivesItems.bracketed_of_const (hfold : env.settings.foldConstants = false)
    {ts : List Token} {es : List Expr} {arg : Incoming} {new : List Diagnostic} :
    DerivesItems ts es → EvaluatesAll env es [arg] new → arg.value.isFailed = false →
      arg.value.const = some c → ∃ t, t.kind ∈ Token.Kind.constants ∧ Token.Bracketed [t] ts
  | .one h, hs, hf, hc => by
    cases hs with
    | cons he => exact h.bracketed_of_const hfold he hf hc
  | .more _ _ hmore, hs, _, _ => by
    -- there are two items or more
    cases hs with
    | cons _ hnil =>
      cases hnil
      cases hmore

end

/-- A failed value with a constant is what a name stands for, with signs in front. -/
theorem Derives.signs_of_failed {n : Nonterminal} {ts : List Token} {e : Expr} {v : Value}
    {new : List Diagnostic} :
    Derives n ts e → Evaluates env e v new → v.isFailed → v.const = some c →
      ∃ signs x, ts = signs ++ [x] ∧ (∀ s ∈ signs, s.kind = .dash ∨ s.kind = .not) ∧
        x.kind = .identifier ∧ env.scope.get? x.value = some v
  | .tighter _ h, he, hf, hc => h.signs_of_failed he hf hc
  | .binary .., he, hf, hc => by
    cases he with
    | binaryFailed => cases hc
    | binary _ _ _ _ hv =>
      exact absurd hc (((resolve_meets _ _ _ _).of_runs hv).produced.not_known hf)
  | .prefixed ht h, he, hf, hc => by
    cases he with
    | prefixFailed he _ =>
      obtain ⟨signs, x, rfl, hsigns, hx⟩ := h.signs_of_failed he hf hc
      exact ⟨_ :: signs, x, rfl, List.forall_mem_cons.2 ⟨ht, hsigns⟩, hx⟩
    | prefixed _ hw hv =>
      exact absurd hc (((Value.prefixed_meets _ _ hw).of_runs hv).not_known hf)
  | .call .., he, hf, hc => by
    cases he with
    | callFailed => cases hc
    | call _ _ hw hv => exact absurd hc (((Value.call_meets _ _ hw).of_runs hv).not_known hf)
  | .number _, he, hf, hc => by
    cases he with
    | number hv => exact absurd hc (((Value.number_meets _).of_runs hv).not_known hf)
  | .literal _, he, hf, _ => by
    cases he
    simp [Value.isFailed_ofLiteral] at hf
  | .name ht, he, _, hc => by
    cases he with
    | name hv =>
      rcases (Value.name_meets _ _).of_runs hv with hget | ⟨rfl, -⟩
      · exact ⟨[], _, rfl, by simp, ht, hget⟩
      · cases hc
  | .group .., he, hf, hc => by
    cases he with
    | groupFailed => cases hc
    | tuple => cases hc
    | grouped => simp [Value.isFailed] at hf

end

/-! ## 3. Spans -/

/-- Where nothing is folded, a span with a constant is a single token in any number of brackets,
but for the end mark; or else it is a name with signs in front, and the name stands for a value
that counts as failed. -/
theorem evaluate_unfolded {env : Env} (hfold : env.settings.foldConstants = false)
    {ts : List Token} {v : Value} {new : List Diagnostic} (h : Runs (evaluate env ts) v new)
    {c : Constant} (hc : v.const = some c) :
    (∃ t, t.kind ∈ Token.Kind.constants ∧ Token.Bracketed [t] (Token.withoutEof ts)) ∨
      (v.isFailed ∧ ∃ sign signs x, Token.withoutEof ts = sign :: (signs ++ [x]) ∧
        (∀ s ∈ sign :: signs, s.kind = .dash ∨ s.kind = .not) ∧
        x.kind = .identifier ∧ env.scope.get? x.value = some v) := by
  cases (evaluate_meets env ts).of_runs h with
  | missing => cases hc
  | tree hparse he =>
    rcases Expr.parse?_sound hparse with hd | hbroken
    · cases hf : v.isFailed with
      | false => exact .inl (hd.bracketed_of_const hfold he hf hc)
      | true =>
        obtain ⟨signs, x, hts, hsigns, hx, hget⟩ := hd.signs_of_failed he hf hc
        cases signs with
        | nil => exact .inl ⟨x, by simp [hx, Token.Kind.constants], hts ▸ .bare⟩
        | cons sign signs => exact .inr ⟨rfl, sign, signs, x, hts, hsigns, hx, hget⟩
    · rw [he.eq_failed_of_broken hbroken] at hc
      cases hc

/-- A declared constant in brackets. -/
theorem evaluate_unfolded_name :
    let x := Token.synthetic .identifier "x"
    let opening := Token.synthetic .openParen "("
    let closing := Token.synthetic .closeParen ")"
    let env : Env := ⟨Scope.empty.declareConst "x" (Ty.number .u8) (.signed 3), ⟨false, "_"⟩⟩
    env.settings.foldConstants = false ∧
      ∃ v, Runs (evaluate env [opening, x, closing]) v [] ∧ v.const = some (.signed 3) ∧
        ∃ t, t.kind ∈ Token.Kind.constants ∧ Token.Bracketed [t] [opening, x, closing] := by
  intro x opening closing env
  have hname : Evaluates env (.name x) _ [] := .of_get? (Scope.get?_insert_self _ _ _)
  have hx : Derives .or [x] (.name x) := (Derives.name rfl).loosen (by decide)
  have hbrackets : Token.Bracketed [x] [opening, x, closing] := .around rfl .bare rfl
  obtain ⟨e, text, he, hv⟩ := hbrackets.evaluates hx hname rfl
  have hrun := Expr.evaluates_iff_runs.1 hv
  rw [← he.evaluate_eq] at hrun
  refine ⟨rfl, _, hrun, rfl, ?_⟩
  rcases evaluate_unfolded rfl hrun rfl with hbare | ⟨hfailed, -⟩
  · exact hbare
  · cases hfailed

/-- A minus in front of a name that stands for a constant of type `void` without a text. -/
theorem evaluate_unfolded_minus :
    let x := Token.synthetic .identifier "x"
    let minus := Token.synthetic .dash "-"
    let v : Value := ⟨Ty.void, some (.signed 5), false, "", []⟩
    let env : Env := ⟨Scope.empty.insert "x" v, ⟨false, "_"⟩⟩
    env.settings.foldConstants = false ∧ Runs (evaluate env [minus, x]) v [] ∧
      v.const = some (.signed 5) ∧ ¬∃ t, Token.Bracketed [t] (Token.withoutEof [minus, x]) := by
  intro x minus v env
  have hname : Evaluates env (.name x) v [] := .of_get? (Scope.get?_insert_self _ _ _)
  have hx : Derives .unary [x] (.name x) := (Derives.name rfl).loosen (by decide)
  have hsentence : Derives .or [minus, x] (.prefixed minus (.name x)) :=
    (Derives.prefixed (.inl rfl) hx).loosen (by decide)
  have hprefixed : Evaluates env (.prefixed minus (.name x)) v [] := .prefixFailed hname rfl
  have hrun := Expr.evaluates_iff_runs.1 hprefixed
  rw [← hsentence.evaluate_eq] at hrun
  refine ⟨rfl, hrun, rfl, ?_⟩
  rintro ⟨t, ht⟩
  have hspan : Token.withoutEof [minus, x] = [minus, x] := rfl
  rw [hspan] at ht
  generalize hts : [minus, x] = ts at ht
  cases ht with
  | bare => cases hts
  | around ho =>
    obtain ⟨rfl, -⟩ := List.cons.inj hts
    cases ho

end ExprCheck
