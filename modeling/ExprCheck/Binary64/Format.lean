/-
ExprCheck.Binary64.Format — binary floating-point formats over one unit.

Every finite number of binary64 is a whole number of units of 2 ^ -1074, and so
is every finite number of binary32. A format then says which whole numbers it
holds: below a limit, those whose significant bits fit its precision and that
are multiples of its finest step. `holds_round` says that rounding lands on such
a number (the limit apart), `round_of_holds` that it leaves one where it is.
-/

namespace ExprCheck

/-- A binary floating-point format. -/
structure BinaryFormat where
  /-- How many significant bits a number has. -/
  precision : Nat
  /-- Numbers are multiples of `2 ^ finest` units. -/
  finest : Nat
  /-- Numbers are below `2 ^ limit` units. -/
  limit : Nat
  precision_pos : 0 < precision := by decide

/-- Units are `2 ^ unitExponent` to one. -/
def unitExponent : Nat := 1074

/-- Sixty-four bits wide. -/
def BinaryFormat.binary64 : BinaryFormat where
  precision := 53
  finest := 0
  limit := 1024 + unitExponent

/-- Thirty-two bits wide. -/
def BinaryFormat.binary32 : BinaryFormat where
  precision := 24
  finest := unitExponent - 149
  limit := 128 + unitExponent

namespace BinaryFormat

/-- Near `n` units neighbouring numbers are `2 ^ step` units apart. -/
def step (f : BinaryFormat) (n : Nat) : Nat := max f.finest (n.log2 + 1 - f.precision)

/-- The format has a number of `n` units. -/
def Holds (f : BinaryFormat) (n : Nat) : Prop := Nat.pow 2 (f.step n) ∣ n ∧ n < Nat.pow 2 f.limit

instance (f : BinaryFormat) (n : Nat) : Decidable (f.Holds n) :=
  inferInstanceAs (Decidable (_ ∧ _))

/-- The whole number nearest to a fraction. Half way between two, the even one. -/
def nearest (num den : Nat) : Nat :=
  let q := num / den
  let r := num % den
  if 2 * r < den then q else if den < 2 * r then q + 1 else q + q % 2

/-- The number of the format nearest to a fraction of units, were there no limit.
Half way between two, the one whose last significant bit is zero. -/
def round (f : BinaryFormat) (num den : Nat) : Nat :=
  let step := Nat.pow 2 (f.step (num / den))
  nearest num (den * step) * step

theorem log2_mul_two_pow {m : Nat} (hm : m ≠ 0) (s : Nat) :
    (m * Nat.pow 2 s).log2 = m.log2 + s := by
  simp only [Nat.pow_eq]
  have hpos := Nat.two_pow_pos s
  rw [Nat.log2_eq_iff (Nat.mul_ne_zero hm (by omega))]
  refine ⟨?_, ?_⟩
  · rw [Nat.pow_add]
    exact Nat.mul_le_mul_right _ (Nat.log2_self_le hm)
  · rw [show m.log2 + s + 1 = m.log2 + 1 + s by omega, Nat.pow_add 2 (m.log2 + 1) s]
    exact Nat.mul_lt_mul_of_pos_right Nat.lt_log2_self hpos

theorem nearest_le_succ (num den : Nat) : nearest num den ≤ num / den + 1 := by
  simp only [nearest]
  split
  · omega
  · split <;> omega

theorem nearest_of_dvd {num den : Nat} (hden : 0 < den) (h : den ∣ num) :
    nearest num den = num / den := by
  obtain ⟨k, rfl⟩ := h
  simp [nearest, hden]

/-- What rounding keeps of a fraction fits the precision, or is the next power of two. -/
theorem nearest_step_le (f : BinaryFormat) (num den : Nat) :
    nearest num (den * Nat.pow 2 (f.step (num / den))) ≤ Nat.pow 2 f.precision := by
  simp only [Nat.pow_eq]
  refine Nat.le_trans (nearest_le_succ _ _) ?_
  rw [Nat.succ_le_iff, ← Nat.div_div_eq_div_mul,
    Nat.div_lt_iff_lt_mul (Nat.two_pow_pos _), ← Nat.pow_add]
  refine Nat.lt_of_lt_of_le (Nat.lt_log2_self) (Nat.pow_le_pow_right (by decide) ?_)
  simp only [step]
  omega

theorem holds_round (f : BinaryFormat) {num den : Nat}
    (h : f.round num den < Nat.pow 2 f.limit) : f.Holds (f.round num den) := by
  refine ⟨?_, h⟩
  have hle := nearest_step_le f num den
  simp only [round, Nat.pow_eq] at hle ⊢
  generalize hm : nearest num (den * 2 ^ f.step (num / den)) = m at hle
  generalize hs : f.step (num / den) = s at hm
  have hfin : f.finest ≤ s := by rw [← hs]; exact Nat.le_max_left _ _
  rcases Nat.eq_zero_or_pos m with rfl | hpos
  · simp
  have hlog : (m * 2 ^ s).log2 = m.log2 + s := log2_mul_two_pow (by omega) s
  rcases Nat.lt_or_eq_of_le hle with hlt | rfl
  · have : m.log2 < f.precision := (Nat.log2_lt (by omega)).2 hlt
    have : f.step (m * 2 ^ s) ≤ s := by simp only [step, hlog]; omega
    exact Nat.dvd_trans (Nat.pow_dvd_pow 2 this) (Nat.dvd_mul_left _ _)
  · have hp := f.precision_pos
    rw [← Nat.pow_add]
    refine Nat.pow_dvd_pow 2 ?_
    simp only [step, Nat.log2_two_pow]
    omega

theorem round_of_holds (f : BinaryFormat) {n : Nat} (h : f.Holds n) : f.round n 1 = n := by
  have h₁ : 2 ^ f.step n ∣ n := h.1
  simp only [round, Nat.div_one, Nat.one_mul, Nat.pow_eq]
  rw [nearest_of_dvd (Nat.two_pow_pos _) h₁, Nat.div_mul_cancel h₁]

end BinaryFormat

end ExprCheck
