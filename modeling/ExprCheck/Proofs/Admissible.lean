/-
ExprCheck.Proofs.Admissible — the values of expressions go with their types.

A value is admissible if its constant has a form that its type takes and the values it
was built from are those of its tuple type, and are admissible themselves. Evaluation
keeps that. It also keeps integers in the range of their types, except where it shifts
them: the type of a shift goes by the amount and not by the value.
-/
import ExprCheck.Proofs.Built
import ExprCheck.Proofs.Grammar

namespace ExprCheck

open Check

/-! ## 1. Values -/

/-- The constant goes with the type, and the components, if there are any, are those of
the tuple type, and admissible. -/
inductive Value.Admissible : Value → Prop
  | mk {v : Value} (hconst : ∀ c, v.const = some c → v.type.Admits c)
      (hcomponents : v.components = [] ∨
        v.type.isTuple ∧ v.type.components? = some (v.components.map (·.type)))
      (hall : ∀ w ∈ v.components, Admissible w) : Admissible v

theorem Value.Admissible.exact {v : Value} (h : v.Admissible) : v.Exact := by
  cases h with
  | mk hconst => exact fun c hc => (hconst c hc).exact

/-- A constant under an integer type is a value of the type's kind. -/
def Value.InRange (v : Value) : Prop := ∀ c, v.const = some c → v.type.InRange c

theorem kept_admissible : Kept True Value.Admissible where
  made v hmade hcomponents :=
    .mk (fun c hc => Made.admits (hc ▸ hmade)) (.inl hcomponents) (by simp [hcomponents])
  text v text h := by
    cases h with
    | mk hconst hcomponents hall => exact .mk hconst hcomponents hall
  tuple items text h := .mk (fun c hc => by cases hc) (.inr ⟨rfl, rfl⟩) h

/-- As long as nothing is shifted. -/
theorem kept_inRange : Kept False Value.InRange where
  made v hmade _ c hc := Made.inRange (hc ▸ hmade)
  text _ _ h := h
  tuple _ _ _ c hc := by cases hc

theorem Value.inRange_of_isFailed {v : Value} (h : v.isFailed) : v.InRange := by
  intro c _ kind hkind
  have hvoid : v.type.bareCategory? = some .void := by
    simpa [Ty.isVoid] using (Bool.and_eq_true_iff.1 h).1
  rw [Ty.stored_of_not_isEnum (by simp [Ty.isEnum, hvoid])] at hkind
  simp [Ty.numberKind?, hvoid, Category.number?] at hkind

/-! ## 2. The tokens of a tree -/

mutual

/-- The tree of a phrase is made of its tokens. -/
theorem Derives.mem_of_tokens {n : Nonterminal} {ts : List Token} {e : Expr} :
    Derives n ts e → ∀ t ∈ e.tokens, t ∈ ts
  | .tighter _ h => h.mem_of_tokens
  | .binary _ hl _ hr => by
    have hl := hl.mem_of_tokens
    have hr := hr.mem_of_tokens
    simp only [Expr.tokens, List.mem_append, List.mem_cons]
    grind
  | .prefixed _ h => by
    have h := h.mem_of_tokens
    simp only [Expr.tokens, List.mem_cons]
    grind
  | .call hf _ ha _ => by
    have hf := hf.mem_of_tokens
    have ha := ha.mem_of_tokens
    simp only [Expr.tokens, List.mem_append, List.mem_cons]
    grind
  | .number _ | .literal _ | .name _ => by simp [Expr.tokens]
  | .group _ hi _ => by
    have hi := hi.mem_of_tokens
    simp only [Expr.tokens, List.mem_append, List.mem_cons]
    grind

theorem DerivesItems.mem_of_tokens {ts : List Token} {es : List Expr} :
    DerivesItems ts es → ∀ t ∈ Expr.tokensAll es, t ∈ ts
  | .one h => by simpa [Expr.tokensAll] using h.mem_of_tokens
  | .more h _ hs => by
    have h := h.mem_of_tokens
    have hs := hs.mem_of_tokens
    simp only [Expr.tokensAll, List.mem_append, List.mem_cons]
    grind

theorem DerivesArgs.mem_of_tokens {ts : List Token} {es : List Expr} :
    DerivesArgs ts es → ∀ t ∈ Expr.tokensAll es, t ∈ ts
  | .none => by simp [Expr.tokensAll]
  | .items h => h.mem_of_tokens
  | .comma h _ => fun t ht => List.mem_append_left _ (h.mem_of_tokens t ht)

end

/-! ## 3. Spans -/

/-- Over a scope whose integers are in range, a span without shifts has a value in
range. What is not read as a sentence has a failed value, whatever its tokens. -/
theorem Evaluated.inRange {env : Env} (hscope : env.scope.All Value.InRange) {ts : List Token}
    (hts : ∀ t ∈ ts, ¬t.Shifts) {v : Value} {new : List Diagnostic}
    (h : Evaluated env ts v new) : v.InRange := by
  cases h with
  | missing => exact kept_inRange.failed
  | tree hparse h =>
    rcases Expr.parse?_sound hparse with hd | hbroken
    · refine h.keeps kept_inRange hscope fun t ht => ?_
      exact hts t (Token.mem_of_mem_withoutEof (hd.mem_of_tokens t ht))
    · exact Value.inRange_of_isFailed (h.failed_of_broken hbroken)

/-- Over a scope built with constants that go with their types, every span has an
admissible value, and one in range if the scope's integers are and nothing is
shifted. -/
theorem evaluate_admissible {s : Scope} (hs : s.Built Ty.Admits) (settings : Settings)
    (ts : List Token) :
    ∃ v new, Runs (evaluate ⟨s, settings⟩ ts) v new ∧ v.Admissible ∧
      (s.All Value.InRange → (∀ t ∈ ts, t.kind ≠ .shiftLeft ∧ t.kind ≠ .shiftRight) →
        v.InRange) := by
  have hscope : s.All Value.Admissible := by
    refine hs.all kept_admissible fun name type c hc => .mk ?_ (.inl rfl) ?_
    · intro c' hc'
      cases hc'
      exact hc
    · simp [Value.ofConstant]
  have hexact : s.Exact := fun name v hv => (hscope name v hv).exact
  obtain ⟨v, new, hrun, hv⟩ := (evaluate_meets ⟨s, settings⟩ ts).runs (fun h => h hexact)
  refine ⟨v, new, hrun, hv.keeps kept_admissible hscope, fun hrange hts => ?_⟩
  refine hv.inRange hrange fun t ht hshift => ?_
  rcases hshift with hk | hk
  · exact (hts t ht).1 hk
  · exact (hts t ht).2 hk

/-- A sum over a scope with one constant. -/
theorem evaluate_admissible_sum :
    let x := Token.synthetic .identifier "x"
    let plus := Token.synthetic .plus "+"
    let s := Scope.empty.declareConst "x" (Ty.number .i16) (.signed 300)
    s.Built Ty.Admits ∧ s.All Value.InRange ∧
      ∃ v new, Runs (evaluate ⟨s, .default⟩ [x, plus, x]) v new ∧ v.Admissible ∧ v.InRange := by
  intro x plus s
  have hstored : (Ty.number .i16).stored = Ty.number .i16 := Ty.stored_of_not_isEnum rfl
  have hadmits : (Ty.number .i16).Admits (.signed 300) := by
    rintro -
    rw [hstored]
    exact (Category.admits_integer (by decide)).2 rfl
  have hs : s.Built Ty.Admits := .declareConst .empty "x" hadmits
  have hin : (Ty.number .i16).InRange (.signed 300) := by
    rintro kind hkind -
    rw [hstored] at hkind
    cases hkind
    exact ⟨300, rfl, by decide⟩
  have hrange : s.All Value.InRange := by
    refine Scope.all_empty.insert "x" ?_
    intro c hc
    cases hc
    exact hin
  obtain ⟨v, new, hrun, hadm, hv⟩ := evaluate_admissible hs .default [x, plus, x]
  exact ⟨hs, hrange, v, new, hrun, hadm, hv hrange (by decide)⟩

end ExprCheck
