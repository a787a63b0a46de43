/-
ExprCheck.Proofs.Sentences — sentences inside spans.

A sentence of the grammar is a span of its own: it has no end mark in it, its tree is what
is evaluated, and cut at commas it is a single part, because every comma in it stands
inside brackets. The last is shown for a stretch of tokens at a time: `Passes depth ts`
says that the cutter, with so many brackets open, reads over `ts` as one piece. Pieces go
together, and a piece that needs an open bracket passes anywhere once it has brackets
around it.

Brackets may stand around a sentence in any number (`Token.Bracketed`). It remains a
sentence and keeps its value, but for the text.
-/
import ExprCheck.Proofs.Grammar
import ExprCheck.Token.Split

namespace ExprCheck

/-! ## 1. Tokens of sentences -/

/-- What is no operator between two operands is one of no nonterminal. -/
theorem Nonterminal.not_mem_operators {n : Nonterminal} {k : Token.Kind}
    (h : Operator.ofKind? k = none) : k ∉ n.operators := by
  intro hmem
  obtain ⟨op, hop, -⟩ := mem_operators.1 hmem
  rw [h] at hop
  cases hop

mutual

/-- No end mark is in a phrase. -/
theorem Derives.ne_eof {n : Nonterminal} {ts : List Token} {e : Expr} :
    Derives n ts e → ∀ t ∈ ts, t.kind ≠ .eof
  | .tighter _ h => h.ne_eof
  | .binary _ hl ht hr => by
    have hleft := hl.ne_eof
    have hright := hr.ne_eof
    have hop := ne_of_mem_of_not_mem ht (Nonterminal.not_mem_operators (k := .eof) rfl)
    simp only [List.mem_append, List.mem_cons]
    grind
  | .prefixed ht h => by
    have hoperand := h.ne_eof
    simp only [List.mem_cons]
    grind
  | .call hf ho ha hc => by
    have hcallee := hf.ne_eof
    have hargs := ha.ne_eof
    simp only [List.mem_append, List.mem_cons, List.not_mem_nil]
    grind
  | .number ht | .name ht => by simp [ht]
  | .literal ht => by
    have hk := ne_of_mem_of_not_mem ht (by decide : .eof ∉ _)
    simpa using hk
  | .group ho hi hc => by
    have hitems := hi.ne_eof
    simp only [List.mem_append, List.mem_cons, List.not_mem_nil]
    grind

theorem DerivesItems.ne_eof {ts : List Token} {es : List Expr} :
    DerivesItems ts es → ∀ t ∈ ts, t.kind ≠ .eof
  | .one h => h.ne_eof
  | .more h ht hs => by
    have hfirst := h.ne_eof
    have hothers := hs.ne_eof
    simp only [List.mem_append, List.mem_cons]
    grind

theorem DerivesArgs.ne_eof {ts : List Token} {es : List Expr} :
    DerivesArgs ts es → ∀ t ∈ ts, t.kind ≠ .eof
  | .none => by simp
  | .items h => h.ne_eof
  | .comma h ht => by
    have hitems := h.ne_eof
    simp only [List.mem_append, List.mem_singleton]
    grind

end

namespace Derives

variable {ts : List Token} {e : Expr}

theorem withoutEof_eq {n : Nonterminal} (h : Derives n ts e) : Token.withoutEof ts = ts :=
  Token.withoutEof_eq_self h.ne_eof

theorem ne_nil {n : Nonterminal} (h : Derives n ts e) : ts ≠ [] := by
  obtain ⟨t, us, rfl, -⟩ := h.starts
  exact List.cons_ne_nil t us

theorem withoutEof_ne_nil {n : Nonterminal} (h : Derives n ts e) : Token.withoutEof ts ≠ [] := by
  rw [h.withoutEof_eq]
  exact h.ne_nil

/-- The value of a sentence is that of its tree. -/
theorem evaluate_eq (h : Derives .or ts e) (env : Env) : evaluate env ts = e.eval env :=
  evaluate_span (by rwa [h.withoutEof_eq]) env

/-- A sentence of which nothing is reported has its value by the rules. -/
theorem evaluates {env : Env} {v : Value} (h : Derives .or ts e)
    (hv : Check.Silent (evaluate env ts) v) : Evaluates env e v [] := by
  rw [h.evaluate_eq] at hv
  exact Expr.evaluates_iff_runs.2 hv

end Derives

/-! ## 2. Cutting over a stretch of tokens -/

namespace Token

/-- With so many brackets open, the cutter reads over the tokens as one piece. -/
def Passes (depth : Int) (ts : List Token) : Prop :=
  ∀ part after, splitFrom .comma true depth part (ts ++ after) =
    splitFrom .comma true depth (part ++ ts) after

namespace Passes

variable {depth : Int} {ts us : List Token} {t : Token}

theorem nil : Passes depth [] := by
  intro part after
  rw [List.nil_append, List.append_nil]

theorem append (h : Passes depth ts) (h' : Passes depth us) : Passes depth (ts ++ us) := by
  intro part after
  rw [List.append_assoc, h, h', List.append_assoc]

/-- A comma passes only inside brackets. -/
theorem one (ho : t.kind.isOpening = false) (hc : t.kind.isClosing = false)
    (h : 0 < depth ∨ t.kind ≠ .comma) : Passes depth [t] := by
  intro part after
  have hcut : ¬(depth ≤ 0 ∧ t.kind = .comma) := by
    rintro ⟨hdepth, hcomma⟩
    rcases h with h | h
    · omega
    · exact h hcomma
  rw [List.singleton_append, splitFrom]
  simp only [ho, hc, Bool.false_eq_true, if_false, if_neg hcut]

/-- Tokens of kinds that neither open nor close nor cut pass anywhere. -/
theorem one_of_mem {kinds : List Kind} (h : t.kind ∈ kinds)
    (hk : ∀ k ∈ kinds, k.isOpening = false ∧ k.isClosing = false ∧ k ≠ .comma) :
    Passes depth [t] :=
  one (hk _ h).1 (hk _ h).2.1 (.inr (hk _ h).2.2)

/-- A comma inside brackets. -/
theorem comma (hd : 0 < depth) (ht : t.kind = .comma) : Passes depth [t] :=
  one (by rw [ht]; rfl) (by rw [ht]; rfl) (.inl hd)

theorem cons (h : Passes depth [t]) (hs : Passes depth ts) : Passes depth (t :: ts) := h.append hs

/-- Brackets hold what is in them together. -/
theorem bracketed {opening closing : Token} (ho : opening.kind = .openParen)
    (h : Passes (depth + 1) ts) (hc : closing.kind = .closeParen) :
    Passes depth (opening :: (ts ++ [closing])) := by
  intro part after
  have hclosing : splitFrom .comma true (depth + 1) (part ++ [opening] ++ ts) (closing :: after) =
      splitFrom .comma true depth (part ++ [opening] ++ ts ++ [closing]) after := by
    rw [splitFrom]
    simp [hc, Kind.isOpening, Kind.isClosing]
  rw [List.cons_append, List.append_assoc, splitFrom, if_pos (by rw [ho]; rfl), h,
    List.singleton_append, hclosing]
  simp only [List.append_assoc, List.cons_append, List.nil_append]

end Passes

end Token

open Token (Passes)

mutual

/-- Every comma of a phrase is inside brackets. -/
theorem Derives.passes {depth : Int} (hd : 0 ≤ depth) {n : Nonterminal} {ts : List Token}
    {e : Expr} : Derives n ts e → Passes depth ts
  | .tighter _ h => h.passes hd
  | .binary _ hl ht hr =>
    (hl.passes hd).append (.cons (.one_of_mem ht (by cases n <;> decide)) (hr.passes hd))
  | @Derives.prefixed t _ _ ht h => by
    have hmem : t.kind ∈ [Token.Kind.dash, .not] := by simpa using ht
    exact .cons (.one_of_mem hmem (by decide)) (h.passes hd)
  | .call hf ho ha hc => (hf.passes hd).append (.bracketed ho (ha.passes (by omega)) hc)
  | .number ht | .name ht => .one_of_mem (List.mem_singleton.2 ht) (by decide)
  | .literal ht => .one_of_mem ht (by decide)
  | .group ho hi hc => .bracketed ho (hi.passes (by omega)) hc

theorem DerivesItems.passes {depth : Int} (hd : 0 < depth) {ts : List Token} {es : List Expr} :
    DerivesItems ts es → Passes depth ts
  | .one h => h.passes (by omega)
  | .more h ht hs => (h.passes (by omega)).append (.cons (.comma hd ht) (hs.passes hd))

theorem DerivesArgs.passes {depth : Int} (hd : 0 < depth) {ts : List Token} {es : List Expr} :
    DerivesArgs ts es → Passes depth ts
  | .none => .nil
  | .items h => h.passes hd
  | .comma h ht => (h.passes hd).append (.comma hd ht)

end

/-- Cut at commas a sentence is one part. -/
theorem Derives.split_eq {ts : List Token} {e : Expr} (h : Derives .or ts e) :
    Token.split ts .comma true = ⟨[ts], []⟩ := by
  have hpasses := h.passes (Int.le_refl 0) [] []
  rw [List.append_nil, List.nil_append, Token.splitFrom] at hpasses
  have hts : ts.isEmpty = false := by simpa using h.ne_nil
  rw [Token.split_eq_splitFrom h.withoutEof_ne_nil, h.withoutEof_eq, hpasses]
  simp [hts]

/-! ## 3. Brackets around a phrase -/

/-- The second span is the first, in any number of brackets. -/
inductive Token.Bracketed (ts : List Token) : List Token → Prop
  | bare : Bracketed ts ts
  | around {us : List Token} {opening closing : Token} (ho : opening.kind = .openParen)
      (h : Bracketed ts us) (hc : closing.kind = .closeParen) :
      Bracketed ts (opening :: (us ++ [closing]))

/-- A phrase in brackets may stand wherever the phrase may, and has the value of the phrase
up to its text. -/
theorem Token.Bracketed.evaluates {env : Env} {n : Nonterminal} {ts us : List Token} {e : Expr}
    {v : Value} (h : Bracketed ts us) (he : Derives n ts e) (hv : Evaluates env e v [])
    (hvoid : v.type.isVoid = false) :
    ∃ e' text, Derives n us e' ∧ Evaluates env e' { v with text := text } [] := by
  induction h with
  | bare =>
    cases v with
    | mk type const isPlace text components => exact ⟨e, text, he, hv⟩
  | around ho _ hc ih =>
    obtain ⟨e', text, he', hv'⟩ := ih
    have hsentence : Derives .or _ e' := he'.loosen (by cases n <;> decide)
    have hgroup := Derives.group ho (.one hsentence) hc
    have hfailed : Value.isFailed { v with text := text } = false :=
      Value.isFailed_of_not_isVoid hvoid
    exact ⟨_, _, hgroup.loosen (by cases n <;> decide), .grouped (.cons hv' .nil) hfailed⟩

end ExprCheck
