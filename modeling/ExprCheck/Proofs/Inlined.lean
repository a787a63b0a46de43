/-
ExprCheck.Proofs.Inlined — a name for an expression, or the expression itself.

A value that an expression was found to have may be declared under a name, and the name
used in another expression; or the first expression may be put into the other, in
brackets, wherever the name stands. Both come to the same, up to texts and places.

`Derives.subst` says that what is put together is read as it was meant: brackets make a
primary of any sentence, and a primary is read wherever a name is. `Expr.eval_subst` is
the induction over the other expression. Where the name stands the values are alike,
because brackets only change the text; and every node takes alike values alike.
-/
import ExprCheck.Proofs.Alike
import ExprCheck.Proofs.Sentences
import ExprCheck.Proofs.Written

namespace ExprCheck

open Check Value

/-! ## 1. Putting an expression in the place of a name -/

/-- The tokens with a span in the place of the name `x`. -/
def Token.subst (x : String) (span ts : List Token) : List Token :=
  ts.flatMap fun t => if t.kind = .identifier ∧ t.value = x then span else [t]

namespace Expr

mutual

/-- The expression with another in the place of the name `x`. -/
def subst (x : String) (r : Expr) : Expr → Expr
  | .number t => .number t
  | .literal t => .literal t
  | .name t => if t.value = x then r else .name t
  | .group opening items stop => .group opening (substAll x r items) stop
  | .prefixed operator operand => .prefixed operator (subst x r operand)
  | .binary left operator right => .binary (subst x r left) operator (subst x r right)
  | .call callee opening args stop => .call (subst x r callee) opening (substAll x r args) stop
  | .invalid stop => .invalid stop
  | .trailing e stop => .trailing (subst x r e) stop
termination_by structural e => e

def substAll (x : String) (r : Expr) : List Expr → List Expr
  | [] => []
  | e :: es => subst x r e :: substAll x r es
termination_by structural es => es

end

end Expr

namespace Token

variable {x : String} {span ts us : List Token} {t : Token}

theorem subst_append : subst x span (ts ++ us) = subst x span ts ++ subst x span us :=
  List.flatMap_append

theorem subst_cons (h : t.kind ≠ .identifier) : subst x span (t :: ts) = t :: subst x span ts := by
  simp [subst, h]

/-- Between the tokens of a node there are no names. -/
theorem subst_between (h : t.kind ≠ .identifier) :
    subst x span (ts ++ t :: us) = subst x span ts ++ t :: subst x span us := by
  rw [subst_append, subst_cons h]

theorem subst_one (h : t.kind ≠ .identifier) : subst x span [t] = [t] := subst_cons h

end Token

section

open Token (subst_cons subst_between subst_one)

variable {x : String} {span : List Token} {r : Expr}

mutual

/-- A primary in the place of a name makes the phrase that it is meant to. -/
theorem Derives.subst {n : Nonterminal} {ts : List Token} {e : Expr} :
    Derives n ts e → Derives .primary span r →
      Derives n (Token.subst x span ts) (Expr.subst x r e)
  | .tighter hn h, hr => .tighter hn (h.subst hr)
  | .binary hn hl ht hright, hr => by
    rw [subst_between (ne_of_mem_of_not_mem ht (Nonterminal.not_mem_operators rfl))]
    exact .binary hn (hl.subst hr) ht (hright.subst hr)
  | .prefixed ht h, hr => by
    rw [subst_cons (by rcases ht with ht | ht <;> simp [ht])]
    exact .prefixed ht (h.subst hr)
  | .call hf ho ha hc, hr => by
    rw [subst_between (by simp [ho]), Token.subst_append, subst_one (by simp [hc])]
    exact .call (hf.subst hr) ho (ha.subst hr) hc
  | .number ht, _ => by
    rw [subst_one (by simp [ht])]
    exact .number ht
  | .literal ht, _ => by
    rw [subst_one (ne_of_mem_of_not_mem ht (by decide))]
    exact .literal ht
  | @Derives.name t ht, hr => by
    by_cases hx : t.value = x
    · simpa [Token.subst, Expr.subst, ht, hx] using hr
    · simpa [Token.subst, Expr.subst, ht, hx] using Derives.name ht
  | .group ho hi hc, hr => by
    rw [subst_cons (by simp [ho]), Token.subst_append, subst_one (by simp [hc])]
    exact .group ho (hi.subst hr) hc

theorem DerivesItems.subst {ts : List Token} {es : List Expr} :
    DerivesItems ts es → Derives .primary span r →
      DerivesItems (Token.subst x span ts) (Expr.substAll x r es)
  | .one h, hr => .one (h.subst hr)
  | .more h ht hs, hr => by
    rw [subst_between (by simp [ht])]
    exact .more (h.subst hr) ht (hs.subst hr)

theorem DerivesArgs.subst {ts : List Token} {es : List Expr} :
    DerivesArgs ts es → Derives .primary span r →
      DerivesArgs (Token.subst x span ts) (Expr.substAll x r es)
  | .none, _ => .none
  | .items h, hr => .items (h.subst hr)
  | .comma h ht, hr => by
    rw [Token.subst_append, subst_one (by simp [ht])]
    exact .comma (h.subst hr) ht

end

end

/-! ## 2. Values -/

namespace Expr

variable {env : Env} {x : String} {v w : Value} {r : Expr}

mutual

/-- With an expression in the place of a name an expression has the value that it has
where the name stands for a value like that of the expression. -/
theorem eval_subst (hr : Silent (eval env r) w) (hvw : v.Alike w) :
    ∀ e : Expr, Matches Alike (eval ⟨env.scope.insert x v, env.settings⟩ e)
      (eval env (subst x r e))
  | .number t => (number_meets t).anyhow.matches_self Alike.refl
  | .literal t => matches_pure (.refl _)
  | .name t => by
    rw [eval, subst, Value.name]
    by_cases hx : t.value = x
    · rw [if_pos hx, hx, Scope.get?_insert_self]
      exact .of_runs (runs_pure v) hr hvw rfl
    · rw [if_neg hx, Scope.get?_insert_of_ne _ _ hx]
      exact (name_meets env t).anyhow.matches_self Alike.refl
  | .group _ items stop => by
    refine (evalItems_subst hr hvw items).bind fun vs ws h => ?_
    cases stop with
    | none => exact matches_pure (group_alike h)
    | some stop => exact unclosedGroup_alike h stop
  | .prefixed operator operand =>
    (eval_subst hr hvw operand).bind fun _ _ h => prefixed_alike rfl operator h
  | .binary left operator right =>
    (eval_subst hr hvw left).bind fun _ _ hl => (eval_subst hr hvw right).bind fun _ _ hs =>
      binary_alike rfl operator hl hs
  | .call callee opening args stop => by
    refine (eval_subst hr hvw callee).bind fun f g h =>
      (evalArgs_subst hr hvw args).bind fun as bs has => ?_
    cases stop with
    | none => exact call_alike h opening has
    | some stop => exact unclosedCall_alike has stop
  | .invalid stop => invalid_alike stop
  | .trailing e stop => (eval_subst hr hvw e).bind fun _ _ _ => invalid_alike stop

theorem evalItems_subst (hr : Silent (eval env r) w) (hvw : v.Alike w) :
    ∀ es : List Expr, Matches (List.Forall₂ Alike)
      (evalItems ⟨env.scope.insert x v, env.settings⟩ es) (evalItems env (substAll x r es))
  | [] => matches_pure .nil
  | e :: es =>
    (eval_subst hr hvw e).bind fun _ _ h =>
      (evalItems_subst hr hvw es).bind fun _ _ hs => matches_pure (.cons h hs)

theorem evalArgs_subst (hr : Silent (eval env r) w) (hvw : v.Alike w) :
    ∀ es : List Expr, Matches (List.Forall₂ Incoming.Alike)
      (evalArgs ⟨env.scope.insert x v, env.settings⟩ es) (evalArgs env (substAll x r es))
  | [] => matches_pure .nil
  | e :: es =>
    (eval_subst hr hvw e).watch.bind fun _ _ h =>
      (evalArgs_subst hr hvw es).bind fun _ _ hs => matches_pure (.cons ⟨h.1, h.2⟩ hs)

end

end Expr

/-- Brackets around an expression of which nothing is reported only change its text. -/
theorem Expr.silent_group_one {env : Env} (hs : env.scope.Written) {e : Expr} {v : Value}
    (h : Silent (eval env e) v) (opening : Token) :
    ∃ w, Silent (eval env (.group opening [e] none)) w ∧ v.Alike w := by
  have hv : Evaluates env e v [] := evaluates_iff_runs.2 h
  have htext : v.text ≠ "" := hv.text_ne hs
  have hf : v.isFailed = false := by simp [Value.isFailed, htext]
  have hgroup : Evaluates env (.group opening [e] none) _ [] := .grouped (.cons hv .nil) hf
  exact ⟨_, evaluates_iff_runs.1 hgroup, Value.alike_text (by simp [htext])⟩

/-- To declare under a name the value that an expression has comes to the same as to put
the expression, in brackets, in the place of the name: what a sentence with the name
evaluates to has the same type, constant and components and is a place or not, and the
same problems are reported in the same order. -/
theorem evaluate_inlined (env : Env) (hexact : env.scope.Exact) (hwritten : env.scope.Written)
    {es : List Token} {e : Expr} (he : Derives .or es e) {v : Value}
    (hv : Silent (evaluate env es) v) (x : String) {cs : List Token} {c : Expr}
    (hc : Derives .or cs c) {opening closing : Token} (hopening : opening.kind = .openParen)
    (hclosing : closing.kind = .closeParen) :
    ∃ w new w' new',
      Runs (evaluate ⟨env.scope.insert x v, env.settings⟩ cs) w new ∧
        Runs (evaluate env (Token.subst x (opening :: (es ++ [closing])) cs)) w' new' ∧
        w.core = w'.core ∧ new.map (·.problem) = new'.map (·.problem) := by
  have hbrackets : Derives .primary (opening :: (es ++ [closing])) (.group opening [e] none) :=
    .group hopening (.one he) hclosing
  rw [he.evaluate_eq] at hv
  obtain ⟨u, hu, halike⟩ := Expr.silent_group_one hwritten hv opening
  rw [hc.evaluate_eq, (hc.subst hbrackets).evaluate_eq]
  rcases Expr.eval_subst hu halike c with ⟨w, new, w', new', hw, hw', hsame, hnew⟩ | ⟨f, -, hf⟩
  · exact ⟨w, new, w', new', hw, hw', hsame.core, hnew⟩
  · -- no fault is possible where the scope is exact
    obtain ⟨_, _, hrun, -⟩ := (Expr.eval_meets env _).runs fun h => h hexact
    exact absurd hf hrun.not_faults

/-- A negation that is used twice, as the operands of a sum, which takes no truth values. -/
theorem evaluate_inlined_negation :
    let b := Token.synthetic .identifier "b"
    let not := Token.synthetic .not "!"
    let x := Token.synthetic .identifier "x"
    let plus := Token.synthetic .plus "+"
    let opening := Token.synthetic .openParen "("
    let closing := Token.synthetic .closeParen ")"
    let env : Env := ⟨Scope.empty.declare "b" Ty.bool, .default⟩
    let v := Value.typed Ty.bool "!b"
    env.scope.Exact ∧ env.scope.Written ∧ Silent (evaluate env [not, b]) v ∧
      ∃ w new w' new',
        Runs (evaluate ⟨env.scope.insert "x" v, env.settings⟩ [x, plus, x]) w new ∧
          Runs (evaluate env [opening, not, b, closing, plus, opening, not, b, closing]) w' new' ∧
          w.core = w'.core ∧ new.map (·.problem) = new'.map (·.problem) := by
  intro b not x plus opening closing env v
  have hexact : env.scope.Exact := Scope.all_empty.insert "b" fun c hc _ => by cases hc
  have hwritten : env.scope.Written := Scope.all_empty.insert "b" (by decide)
  have he : Derives .or [not, b] (.prefixed not (.name b)) :=
    (Derives.prefixed (.inr rfl) ((Derives.name rfl).loosen (by decide))).loosen (by decide)
  have hname : Derives .product [x] (.name x) := (Derives.name rfl).loosen (by decide)
  have hsum : Derives .sum [x, plus, x] (.binary (.name x) plus (.name x)) :=
    .binary rfl (hname.loosen (by decide)) (by decide) hname
  have hc : Derives .or [x, plus, x] _ := hsum.loosen (by decide)
  have hv : Silent (evaluate env [not, b]) v := by
    have hb : Silent (Value.name env b) (.place Ty.bool "b") := runs_pure _
    rw [he.evaluate_eq]
    exact hb.bind (runs_pure v)
  exact ⟨hexact, hwritten, hv, evaluate_inlined env hexact hwritten he hv "x" hc rfl rfl⟩

end ExprCheck
