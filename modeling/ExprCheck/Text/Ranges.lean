/-
ExprCheck.Text.Ranges — sets of characters as ranges of code points.

A table lists its ranges in ascending order, so a search stops at the first
range that starts too late. `inRanges_iff` says that nothing is lost by it.
-/

namespace ExprCheck.Text

/-- Whether `n` lies in one of the ranges, both ends included. -/
def inRanges (n : Nat) : List (Nat × Nat) → Bool
  | [] => false
  | (lo, hi) :: rest => if n < lo then false else if n ≤ hi then true else inRanges n rest

/-- Each range ends before the next one starts. -/
def Ascending : List (Nat × Nat) → Prop
  | [] => True
  | (lo, hi) :: rest => lo ≤ hi ∧ (∀ r ∈ rest, hi < r.1) ∧ Ascending rest

theorem inRanges_iff {n : Nat} {rs : List (Nat × Nat)} (h : Ascending rs) :
    inRanges n rs = true ↔ ∃ r ∈ rs, r.1 ≤ n ∧ n ≤ r.2 := by
  induction rs with
  | nil => simp [inRanges]
  | cons r rest ih =>
    obtain ⟨lo, hi⟩ := r
    obtain ⟨hle, hlt, hrest⟩ := h
    simp only [inRanges, List.mem_cons, exists_eq_or_imp]
    by_cases h₁ : n < lo
    · rw [if_pos h₁]
      refine ⟨nofun, ?_⟩
      rintro (⟨h₂, -⟩ | ⟨r, hr, h₂, -⟩)
      · omega
      · have := hlt r hr
        omega
    · rw [if_neg h₁]
      by_cases h₂ : n ≤ hi
      · simp only [if_pos h₂, true_iff]
        exact .inl ⟨by omega, h₂⟩
      · rw [if_neg h₂, ih hrest]
        exact ⟨.inr, fun h => h.resolve_left (fun h => h₂ h.2)⟩

end ExprCheck.Text
