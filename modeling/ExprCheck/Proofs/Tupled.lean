/-
ExprCheck.Proofs.Tupled — results returned one by one, or as a tuple.

A function with several results may be given them one by one, or as one tuple that is
written out. The first statement is cut at commas and each part is read by itself. The
second is one sentence, and it is the parser that finds the commas. `Listed` is what both
are made of, expressions with commas between them: cut at commas they fall apart into just
these (`Listed.splitFrom_eq`), because every other comma is inside brackets, and in brackets they
are the items of a group (`Listed.items`).

What is checked is the same as well. A tuple that is written out keeps its values, texts and
constants included, and hands them on one by one (`componentValues_tuple`), unless one of
them failed. Where every name has a text, none does without a report.
-/
import ExprCheck.Proofs.Single
import ExprCheck.Proofs.Written

namespace ExprCheck

open Check

/-! ## 1. Expressions with commas between them -/

/-- The tokens are expressions with commas between them, and these have the values, without
a report. -/
inductive Listed (env : Env) : List Token → List Value → Prop
  | one {ts : List Token} {e : Expr} {v : Value} (h : Derives .or ts e)
      (hv : Silent (evaluate env ts) v) : Listed env ts [v]
  | more {ts us : List Token} {e : Expr} {v : Value} {t : Token} {vs : List Value}
      (h : Derives .or ts e) (hv : Silent (evaluate env ts) v) (ht : t.kind = .comma)
      (hs : Listed env us vs) : Listed env (ts ++ t :: us) (v :: vs)

namespace Token

/-- A comma outside brackets ends a part. -/
theorem splitFrom_comma {t : Token} (ht : t.kind = .comma) {part : List Token} (hpart : part ≠ [])
    (ts : List Token) :
    splitFrom .comma true 0 part (t :: ts) =
      ⟨part :: (splitFrom .comma true 0 [] ts).parts, (splitFrom .comma true 0 [] ts).missing⟩ := by
  have hempty : part.isEmpty = false := by simpa using hpart
  rw [splitFrom]
  simp [ht, Kind.isOpening, Kind.isClosing, Parts.add, hempty]

end Token

namespace Listed

variable {env : Env} {ts : List Token} {vs : List Value}

/-- In brackets the expressions are the items of a group, and evaluated in turn they have
the values. -/
theorem items (h : Listed env ts vs) :
    ∃ es args, DerivesItems ts es ∧ EvaluatesAll env es args [] ∧ args.map (·.value) = vs := by
  induction h with
  | one h hv => exact ⟨_, _, .one h, .cons (h.evaluates hv) .nil, rfl⟩
  | more h hv ht _ ih =>
    obtain ⟨es, args, hitems, hargs, rfl⟩ := ih
    exact ⟨_, _, .more h ht hitems, .cons (h.evaluates hv) hargs, rfl⟩

/-- Cut at commas they fall apart, and each part has its value. -/
theorem splitFrom_eq (h : Listed env ts vs) : ∃ parts,
    Token.splitFrom .comma true 0 [] ts = ⟨parts, []⟩ ∧
      List.Forall₂ (fun part v => Silent (evaluate env part) v) parts vs := by
  induction h with
  | @one ts _ _ h hv =>
    have hpasses := h.passes (Int.le_refl 0) [] []
    have hempty : ts.isEmpty = false := by simpa using h.ne_nil
    rw [List.append_nil, List.nil_append] at hpasses
    refine ⟨[ts], ?_, .cons hv .nil⟩
    rw [hpasses, Token.splitFrom, hempty]
    rfl
  | @more ts us _ _ t _ h hv ht _ ih =>
    obtain ⟨parts, hsplit, hparts⟩ := ih
    refine ⟨ts :: parts, ?_, .cons hv hparts⟩
    rw [h.passes (Int.le_refl 0), List.nil_append, Token.splitFrom_comma ht h.ne_nil, hsplit]

theorem withoutEof_eq (h : Listed env ts vs) : Token.withoutEof ts = ts := by
  obtain ⟨es, args, hitems, -, -⟩ := h.items
  exact Token.withoutEof_eq_self hitems.ne_eof

theorem ne_nil (h : Listed env ts vs) : ts ≠ [] := by
  cases h with
  | one h => exact h.ne_nil
  | more h => exact List.append_ne_nil_of_left_ne_nil h.ne_nil _

/-- As a statement they supply their values one by one. -/
theorem supplies (h : Listed env ts vs) : Return.Supplies env ts vs := by
  obtain ⟨parts, hsplit, hparts⟩ := h.splitFrom_eq
  have hne : Token.withoutEof ts ≠ [] := by
    rw [h.withoutEof_eq]
    exact h.ne_nil
  have hcut : Token.split ts .comma true = ⟨parts, []⟩ := by
    rw [Token.split_eq_splitFrom hne, h.withoutEof_eq, hsplit]
  rw [Return.Supplies, hcut]
  exact ⟨rfl, hparts⟩

/-- None of them fails where every name has a text. -/
theorem not_isFailed (hs : env.scope.Written) (h : Listed env ts vs) :
    ∀ v ∈ vs, v.isFailed = false := by
  have hone {ts : List Token} {e : Expr} {v : Value} (h : Derives .or ts e)
      (hv : Silent (evaluate env ts) v) : v.isFailed = false := by
    simp [Value.isFailed, (h.evaluates hv).text_ne hs]
  induction h with
  | one h hv => simpa using hone h hv
  | more h hv _ _ ih => simpa using ⟨hone h hv, ih⟩

end Listed

/-- In brackets they are one sentence, and its value is the tuple. -/
theorem Listed.tuple {env : Env} (hs : env.scope.Written) {ts : List Token} {vs : List Value}
    (h : Listed env ts vs) (hseveral : vs.length ≠ 1) {opening closing : Token}
    (ho : opening.kind = .openParen) (hc : closing.kind = .closeParen) :
    ∃ e, Derives .or (opening :: (ts ++ [closing])) e ∧
      Silent (evaluate env (opening :: (ts ++ [closing])))
        (.tuple vs ("(" ++ Value.texts vs ++ ")")) := by
  obtain ⟨es, args, hitems, hargs, rfl⟩ := h.items
  have htree : Derives .or (opening :: (ts ++ [closing])) (.group opening es none) :=
    (Derives.group ho hitems hc).loosen (by decide)
  refine ⟨_, htree, ?_⟩
  rw [htree.evaluate_eq]
  have hvalue : Evaluates env (.group opening es none) _ [] :=
    .tuple hargs (by simpa using h.not_isFailed hs) (by simpa using hseveral)
  exact Expr.evaluates_iff_runs.1 hvalue

/-! ## 2. Statements -/

namespace Return

variable {env : Env} {position : Position} {types : List Ty} {vs : List Value}

/-- A tuple that is written out has the values it was built from. -/
theorem componentValues_tuple (vs : List Value) (text : String) :
    componentValues (.tuple vs text) (vs.map (·.type)) = vs := by
  refine List.ext_getElem (by simp [componentValues]) fun i h _ => ?_
  have hi : i < vs.length := by simpa [componentValues] using h
  simp [componentValues, Value.tuple, Value.typed, hi]

/-- Of a tuple that is written out the components are checked. -/
theorem checkTuple_run_tuple (hlength : vs.length = types.length) (text : String) :
    Runs (checkTuple position types ⟨.tuple vs text, position, false⟩) ()
      (misfitsEach types vs position) := by
  have htuple : (Value.tuple vs text).type.isTuple = true := rfl
  have hcomponents : (Value.tuple vs text).type.components? = some (vs.map (·.type)) := rfl
  unfold checkTuple
  simp only [htuple, hcomponents, Bool.false_eq_true, if_false, if_true, List.length_map, hlength,
    Nat.lt_irrefl, componentValues_tuple]
  exact checkAssignEach_run types vs position

/-- Of several values, as many as the results, each is checked. -/
theorem checkSeveral_run_loose (hseveral : vs.length ≠ 1) (hlength : vs.length = types.length) :
    Runs (checkSeveral position types (unreported position vs)) ()
      (misfitsEach types vs position) := by
  rw [checkSeveral_loose (by simpa using hseveral), length_unreported, hlength,
    if_neg (Nat.lt_irrefl _)]
  exact checkAssignEach_run types vs position

end Return

open Return in
/-- Where every name has a text, it does not matter whether the results of a function are
given one by one or as a tuple that is written out: the same problems are reported, what is
wrong with each of the values and nothing else. -/
theorem returned_as_tuple {env : Env} (hs : env.scope.Written) {signature : Signature Ty}
    {types : List Ty} (htypes : signature.result.components? = some types)
    (hseveral : 2 ≤ types.length) {ts : List Token} {vs : List Value} (h : Listed env ts vs)
    (hlength : vs.length = types.length) {opening closing : Token}
    (ho : opening.kind = .openParen) (hc : closing.kind = .closeParen) {loose tupled : List Token}
    (hloose : Token.withoutEof loose = ts)
    (htupled : Token.withoutEof tupled = opening :: (ts ++ [closing])) (position : Position) :
    ∃ w, Runs (checkReturn env signature position loose) vs (misfitsEach types vs position) ∧
      Runs (checkReturn env signature position tupled) [w] (misfitsEach types vs position) := by
  have hmany : vs.length ≠ 1 := by omega
  obtain ⟨e, htree, hvalue⟩ := h.tuple hs hmany ho hc
  refine ⟨.tuple vs ("(" ++ Value.texts vs ++ ")"), ?_, ?_⟩
  · have hparts : Silent (evalParts env position ts) (unreported position vs) :=
      silent_evalParts_iff.2 ⟨vs, h.supplies, rfl⟩
    have hchecked : Runs (checkSeveral position types (unreported position vs)) ()
        (misfitsEach types vs position) := checkSeveral_run_loose hmany hlength
    rw [checkReturn_several htypes (by rw [hloose]; exact h.ne_nil), hloose]
    refine hparts.bind (hchecked.bind_silent ?_)
    rw [map_value_unreported]
    exact runs_pure vs
  · rw [checkReturn_several htypes (by rw [htupled]; exact htree.ne_nil), htupled]
    exact (silent_evalParts_one htree hvalue).bind
      ((checkTuple_run_tuple hlength _).bind_silent (runs_pure _))

/-- A truth value is no integer, whether it is one of two results or one of a pair. -/
theorem returned_as_tuple_bool :
    let types := [Ty.bool, Ty.number .i32]
    let b := Token.synthetic .identifier "b"
    let comma := Token.synthetic .comma ","
    let opening := Token.synthetic .openParen "("
    let closing := Token.synthetic .closeParen ")"
    let v := Value.place Ty.bool "b"
    let env : Env := ⟨Scope.empty.declare "b" Ty.bool, .default⟩
    let signature : Signature Ty := ⟨"f", [], Ty.tupleOf types, []⟩
    let wrong : List Diagnostic := [⟨.incompatibleType "i32" "bool", .null⟩]
    env.scope.Written ∧ signature.result.components? = some types ∧ 2 ≤ types.length ∧
      Listed env [b, comma, b] [v, v] ∧
      Runs (checkReturn env signature .null [b, comma, b]) [v, v] wrong ∧
      ∃ w, Runs (checkReturn env signature .null [opening, b, comma, b, closing]) [w] wrong := by
  intro types b comma opening closing v env signature wrong
  have hs : env.scope.Written := Scope.all_empty.insert "b" (by decide)
  have hb : Silent (evaluate env [b]) v := silent_evaluate_name rfl rfl
  have htree : Derives .or [b] (.name b) := (Derives.name rfl).loosen (by decide)
  have hlisted : Listed env [b, comma, b] [v, v] := .more htree hb rfl (.one htree hb)
  have htypes : signature.result.components? = some types := rfl
  have ho : opening.kind = .openParen := rfl
  have hc : closing.kind = .closeParen := rfl
  have hspan : Token.withoutEof [b, comma, b] = [b, comma, b] := rfl
  have hspan' : Token.withoutEof [opening, b, comma, b, closing] =
      opening :: ([b, comma, b] ++ [closing]) := rfl
  obtain ⟨w, hloose, htupled⟩ := returned_as_tuple hs htypes (Nat.le_refl 2) hlisted rfl ho hc
    hspan hspan' .null
  exact ⟨hs, rfl, Nat.le_refl 2, hlisted, hloose, w, htupled⟩

end ExprCheck
