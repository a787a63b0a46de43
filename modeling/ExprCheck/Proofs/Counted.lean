/-
ExprCheck.Proofs.Counted — arrays before and after their sizes are resolved.

Arrays meet by what is known of their counts, which is nothing while the size is an expression.
`ArraySize.Counts` says what count a size comes to in a scope, and a size that is resolved
without a report gives the array that count and leaves it an array (`counted_of_silent`). So
resolved arrays meet if and only if their counts are equal.

Before that, an array whose count is known meets none whose count is not, and nothing is lost
when both come to be known. But of two arrays whose counts are not known neither is asked for
its expression. They meet whatever the expressions are, and when these come to different counts
the arrays meet no longer (`compatible_resolveSize`).
-/
import ExprCheck.Proofs.Returned
import ExprCheck.Proofs.Shapes

namespace ExprCheck

open Check

/-! ## 1. Counts -/

/-- The size comes to the count: it is the count, or an expression that is evaluated to it
without a report. -/
inductive ArraySize.Counts (env : Env) : ArraySize → Nat → Prop
  | fixed (n : Nat) : Counts env (.fixed n) n
  | deferred {tokens : List Token} {v : Value} {n : Nat} (heval : Silent (evaluate env tokens) v)
      (hcount : Ty.countOf? v = some n) : Counts env (.deferred tokens) n

namespace Ty

variable {env : Env} {ignoreAny : Bool} {a b t t' : Ty}

/-- An array that gets a count is told as an array, whatever its name was before. -/
theorem isArray_withCount (h : t.bareCategory? = some .array) (n : Nat) :
    (t.withCount n).isArray := by
  have hname : (t.withCount n).name.toList =
      '[' :: ((toString n).toList ++ ']' :: t.elementSpelling.toList) := by
    simp [withCount, rename, derivedName?, category_of_bareCategory? h, ArraySize.text,
      elementSpelling]
  have hbare : (t.withCount n).bareCategory? = some .array := h
  exact (isArray_iff hbare hname).2 (text_fixed n)

/-- A size that comes to a count gives it to the type. -/
theorem silent_resolveSize {tokens : List Token} {v : Value} {n : Nat}
    (hsize : t.size = some (.deferred tokens)) (heval : Silent (evaluate env tokens) v)
    (hcount : countOf? v = some n) : Silent (t.resolveSize env) (t.withCount n) := by
  unfold resolveSize
  rw [hsize]
  refine Runs.bind_silent heval ?_
  rw [hcount]
  exact runs_pure _

/-- What it is for an array to have got the count that its size comes to. -/
structure Counted (env : Env) (t t' : Ty) (size : ArraySize) (n : Nat) : Prop where
  counts : size.Counts env n
  count? : t'.count? = some n
  isArray : t.isArray → t'.isArray

/-- A size that is resolved without a report gives the array a count. -/
theorem counted_of_silent {size : ArraySize} (h : t.bareCategory? = some .array)
    (hsize : t.size = some size) (hauto : size ≠ .auto) (hrun : Silent (t.resolveSize env) t') :
    ∃ n, Counted env t t' size n := by
  unfold resolveSize at hrun
  rw [hsize] at hrun
  cases size with
  | fixed n =>
    obtain rfl := silent_pure_iff.1 hrun
    exact ⟨n, .fixed n, by rw [count?, hsize]; rfl, id⟩
  | auto => exact absurd rfl hauto
  | deferred tokens =>
    obtain ⟨v, heval, hv⟩ := (silent_bind_iff (evaluate_runs env tokens).anyhow fun v => by
      split
      · exact meets_pure trivial
      · exact meets_report_pure trivial).1 hrun
    split at hv
    · rename_i n hcount
      obtain rfl := silent_pure_iff.1 hv
      exact ⟨n, .deferred heval hcount, rfl, fun _ => isArray_withCount h n⟩
    · exact absurd hv (not_silent_report_bind (meets_pure trivial))

/-! ## 2. Arrays that meet -/

/-- Arrays meet, if they are told as arrays and their counts are known, by the counts alone. -/
theorem compatible_iff_of_count? {m n : Nat} (ha : a.isArray) (hb : b.isArray)
    (hm : a.count? = some m) (hn : b.count? = some n) : compatible ignoreAny a b ↔ m = n := by
  rw [compatible_of_array (bareCategory?_of_isArray ha) (bareCategory?_of_isArray hb), sameCount,
    ha, hb, hm, hn]
  simp

/-- Two arrays whose sizes are resolved without a report, each by itself, in one scope. If they
met before, they meet after if and only if their sizes come to one count. That they do not, so
that they meet no longer, can be only where both sizes were expressions. -/
theorem compatible_resolveSize (env : Env) {a b a' b' : Ty} {size size' : ArraySize}
    (ha : a.bareCategory? = some .array) (hb : b.bareCategory? = some .array)
    (hsize : a.size = some size) (hsize' : b.size = some size')
    (hauto : size ≠ .auto) (hauto' : size' ≠ .auto) {ds : Diagnostics}
    (hrun : (a.resolveSize env).run ds = .ok (a', ds))
    (hrun' : (b.resolveSize env).run ds = .ok (b', ds)) (h : compatible ignoreAny a b) :
    ∃ m n, size.Counts env m ∧ size'.Counts env n ∧
      a'.count? = some m ∧ b'.count? = some n ∧
      (compatible ignoreAny a' b' ↔ m = n) ∧
      (m ≠ n → ∃ tokens tokens', size = .deferred tokens ∧ size' = .deferred tokens') := by
  obtain ⟨m, hm⟩ := counted_of_silent ha hsize hauto
    ((silent_iff_run (resolveSize_runs env a).anyhow ds).2 hrun)
  obtain ⟨n, hn⟩ := counted_of_silent hb hsize' hauto'
    ((silent_iff_run (resolveSize_runs env b).anyhow ds).2 hrun')
  rw [compatible_of_array ha hb, sameCount, Bool.and_eq_true, Bool.and_eq_true,
    beq_iff_eq] at h
  obtain ⟨⟨harray, harray'⟩, hcount⟩ := h
  refine ⟨m, n, hm.counts, hn.counts, hm.count?, hn.count?,
    compatible_iff_of_count? (hm.isArray harray) (hn.isArray harray') hm.count? hn.count?, ?_⟩
  intro hne
  rw [count?, count?, hsize, hsize'] at hcount
  have hcounts := hm.counts
  have hcounts' := hn.counts
  cases hcounts with
  | fixed =>
    cases hcounts' with
    | fixed => exact absurd (Option.some.inj hcount) hne
    | deferred => cases hcount
  | deferred =>
    cases hcounts' with
    | fixed => cases hcount
    | deferred => exact ⟨_, _, rfl, rfl⟩

/-- Two constants of one value, of a signed type and an unsigned one, as the sizes of arrays of
different elements. -/
theorem compatible_resolveSize_equal :
    let x := Token.synthetic .identifier "x"
    let z := Token.synthetic .identifier "z"
    let scope := (Scope.empty.declareConst "x" (number .i8) (.signed 2)).declareConst "z"
      (number .u64) (.unsigned 2)
    let env : Env := ⟨scope, .default⟩
    let a := arrayOf str (.deferred [x])
    let b := arrayOf bool (.deferred [z])
    (a.resolveSize env).run .empty = .ok (a.withCount 2, .empty) ∧
      (b.resolveSize env).run .empty = .ok (b.withCount 2, .empty) ∧
      compatible false a b ∧ compatible false (a.withCount 2) (b.withCount 2) := by
  intro x z scope env a b
  have hx : Silent (a.resolveSize env) (a.withCount 2) :=
    silent_resolveSize rfl (silent_evaluate_name rfl rfl) (by decide)
  have hz : Silent (b.resolveSize env) (b.withCount 2) :=
    silent_resolveSize rfl (silent_evaluate_name rfl rfl) (by decide)
  have h : compatible false a b := by decide +kernel
  obtain ⟨m, n, -, -, hm, hn, hiff, -⟩ := compatible_resolveSize env rfl rfl rfl rfl
    ArraySize.noConfusion ArraySize.noConfusion (hx .empty) (hz .empty) h
  have hmn : m = n := Option.some.inj (hm.symm.trans hn)
  exact ⟨hx .empty, hz .empty, h, hiff.2 hmn⟩

/-- Two constants of different values. The arrays that they are the sizes of meet until the
sizes are resolved. -/
theorem compatible_until_resolved :
    let x := Token.synthetic .identifier "x"
    let z := Token.synthetic .identifier "z"
    let scope := (Scope.empty.declareConst "x" (number .i8) (.signed 1)).declareConst "z"
      (number .i8) (.signed 2)
    let env : Env := ⟨scope, .default⟩
    let a := arrayOf (number .i32) (.deferred [x])
    let b := arrayOf (number .i32) (.deferred [z])
    (a.resolveSize env).run .empty = .ok (a.withCount 1, .empty) ∧
      (b.resolveSize env).run .empty = .ok (b.withCount 2, .empty) ∧
      compatible false a b ∧ compatible false (a.withCount 1) (b.withCount 2) = false := by
  intro x z scope env a b
  have hx : Silent (a.resolveSize env) (a.withCount 1) :=
    silent_resolveSize rfl (silent_evaluate_name rfl rfl) (by decide)
  have hz : Silent (b.resolveSize env) (b.withCount 2) :=
    silent_resolveSize rfl (silent_evaluate_name rfl rfl) (by decide)
  exact ⟨hx .empty, hz .empty, by decide +kernel, by decide +kernel⟩

end Ty

end ExprCheck
