/-
ExprCheck.Proofs.Rounding — what rounding does to the order of numbers.

A rounded fraction is a whole number of steps, and the step goes by the fraction itself. So two
fractions may be rounded by different steps, and no argument by steps alone says that rounding
keeps the order. What says it are the powers of two: they are held by every format, so rounding
does not pass one (`two_pow_le_round`, `round_le_two_pow`), and between two fractions of
different steps there is one (`round_mono`).

The whole part of a quotient is kept as well, although the quotient is rounded to the nearest
number and may be rounded up. Near a quotient of two numbers of no more bits than the precision
the steps are shorter than what is missing to the next whole number (`mul_step_lt`), so that
number is only reached by a quotient that is whole (`round_quotient`).

The second half reads this off binary64: the sign and the place of a rounded fraction, and whole
numbers, which are held as they are up to 2 ^ 53 (`isWhole_ofInt`) and keep their order
beyond (`place?_ofInt_mono`).
-/
import ExprCheck.Binary64.Basic
import Mathlib.Data.Nat.Prime.Basic

namespace ExprCheck

namespace BinaryFormat

variable (f : BinaryFormat) {num num' den k : Nat}

/-! ## 1. The nearest whole number -/

theorem div_le_nearest (num den : Nat) : num / den ≤ nearest num den := by
  simp only [nearest]
  split
  · exact Nat.le_refl _
  · split <;> omega

/-- The nearest whole number is no more than a half away. -/
theorem nearest_near (num : Nat) (hden : 0 < den) :
    2 * num ≤ 2 * (nearest num den * den) + den ∧
      2 * (nearest num den * den) ≤ 2 * num + den := by
  have hnum := Nat.div_add_mod num den
  have hrest := Nat.mod_lt num hden
  rw [Nat.mul_comm den] at hnum
  have hsucc := Nat.succ_mul (num / den) den
  simp only [nearest]
  split
  · omega
  · split
    · rw [hsucc]
      omega
    · rcases Nat.mod_two_eq_zero_or_one (num / den) with heven | heven
      · rw [heven, Nat.add_zero]
        omega
      · rw [heven, hsucc]
        omega

theorem nearest_zero (den : Nat) : nearest 0 den = 0 := by
  simp [nearest]

theorem nearest_mono (h : num ≤ num') : nearest num den ≤ nearest num' den := by
  have hdiv : num / den ≤ num' / den := Nat.div_le_div_right h
  rcases Nat.lt_or_eq_of_le hdiv with hlt | heq
  · exact Nat.le_trans (nearest_le_succ num den) (Nat.le_trans hlt (div_le_nearest num' den))
  · -- of two fractions with one whole part the smaller one has the smaller rest
    have hnum := Nat.div_add_mod num den
    have hnum' := Nat.div_add_mod num' den
    have hrest : num % den ≤ num' % den := by
      rw [← heq] at hnum'
      omega
    simp only [nearest, ← heq]
    repeat' split
    all_goals omega

theorem nearest_mul_right {c : Nat} (hc : 0 < c) (num den : Nat) :
    nearest (num * c) (den * c) = nearest num den := by
  have htwice : 2 * (num % den * c) = 2 * (num % den) * c := (Nat.mul_assoc ..).symm
  simp only [nearest, Nat.mul_div_mul_right _ _ hc, Nat.mul_mod_mul_right, htwice,
    Nat.mul_lt_mul_right hc]

/-! ## 2. Rounding and powers of two -/

theorem log2_mono {m n : Nat} (h : m ≤ n) : m.log2 ≤ n.log2 := by
  rcases Nat.eq_zero_or_pos m with rfl | hm
  · rw [Nat.log2_zero]
    exact Nat.zero_le _
  · have hself := Nat.log2_self_le (Nat.ne_of_gt hm)
    exact (Nat.le_log2 (by omega)).2 (Nat.le_trans hself h)

/-- From a power of two on nothing is rounded to less than it. -/
theorem two_pow_le_round (hk : f.finest ≤ k) (h : Nat.pow 2 k ≤ num / den) :
    Nat.pow 2 k ≤ f.round num den := by
  simp only [round, Nat.pow_eq] at h ⊢
  have hpos : num / den ≠ 0 := by
    have := Nat.two_pow_pos k
    omega
  have hlog : k ≤ (num / den).log2 := (Nat.le_log2 hpos).2 h
  have hstep : f.step (num / den) ≤ (num / den).log2 := by
    have := f.precision_pos
    simp only [step]
    omega
  have hself := Nat.log2_self_le hpos
  generalize f.step (num / den) = s at hstep
  generalize (num / den).log2 = l at hlog hstep hself
  calc 2 ^ k
    _ ≤ 2 ^ l := Nat.pow_le_pow_right Nat.two_pos hlog
    _ = 2 ^ (l - s) * 2 ^ s := by rw [← Nat.pow_add, Nat.sub_add_cancel hstep]
    _ ≤ num / (den * 2 ^ s) * 2 ^ s := by
      refine Nat.mul_le_mul_right _ ?_
      rw [← Nat.div_div_eq_div_mul, Nat.le_div_iff_mul_le (Nat.two_pow_pos s), ← Nat.pow_add,
        Nat.sub_add_cancel hstep]
      exact hself
    _ ≤ nearest num (den * 2 ^ s) * 2 ^ s := Nat.mul_le_mul_right _ (div_le_nearest _ _)

/-- Below a power of two nothing is rounded to more than it. -/
theorem round_le_two_pow (hk : f.finest ≤ k) (h : num / den < Nat.pow 2 k) :
    f.round num den ≤ Nat.pow 2 k := by
  simp only [round, Nat.pow_eq] at h ⊢
  have hstep : f.step (num / den) ≤ k := by
    have := f.precision_pos
    simp only [step]
    by_cases hzero : num / den = 0
    · rw [hzero, Nat.log2_zero]
      omega
    · have := (Nat.log2_lt hzero).2 h
      omega
  generalize f.step (num / den) = s at hstep
  have hdiv : num / (den * 2 ^ s) < 2 ^ (k - s) := by
    rw [← Nat.div_div_eq_div_mul, Nat.div_lt_iff_lt_mul (Nat.two_pow_pos s), ← Nat.pow_add,
      Nat.sub_add_cancel hstep]
    exact h
  calc nearest num (den * 2 ^ s) * 2 ^ s
    _ ≤ 2 ^ (k - s) * 2 ^ s :=
      Nat.mul_le_mul_right _ (Nat.le_trans (nearest_le_succ _ _) hdiv)
    _ = 2 ^ k := by rw [← Nat.pow_add, Nat.sub_add_cancel hstep]

/-- What has fewer bits than the limit is rounded to less than it. -/
theorem round_mul_two_pow_lt {n u : Nat} (h : n < Nat.pow 2 k) (hfinest : f.finest ≤ k + u)
    (hlimit : k + u < f.limit) (den : Nat) :
    f.round (n * Nat.pow 2 u) den < Nat.pow 2 f.limit := by
  have hround : f.round (n * Nat.pow 2 u) den ≤ Nat.pow 2 (k + u) := by
    refine f.round_le_two_pow hfinest (Nat.lt_of_le_of_lt (Nat.div_le_self _ _) ?_)
    simp only [Nat.pow_eq, Nat.pow_add] at h ⊢
    exact Nat.mul_lt_mul_of_pos_right h (Nat.two_pow_pos _)
  exact Nat.lt_of_le_of_lt hround (Nat.pow_lt_pow_right (by decide) hlimit)

/-- Rounding keeps the order. -/
theorem round_mono (h : num ≤ num') (den : Nat) : f.round num den ≤ f.round num' den := by
  have hdiv : num / den ≤ num' / den := Nat.div_le_div_right h
  have hlog := log2_mono hdiv
  by_cases hstep : f.step (num / den) = f.step (num' / den)
  · simp only [round, hstep]
    exact Nat.mul_le_mul_right _ (nearest_mono h)
  · -- a power of two lies between the two
    have hp := f.precision_pos
    have hne : (num / den).log2 ≠ (num' / den).log2 := fun he =>
      hstep (by rw [step, step, he])
    have hfinest : f.finest ≤ (num' / den).log2 := by
      simp only [step] at hstep
      omega
    have hpos : num' / den ≠ 0 := by
      intro hzero
      rw [hzero, Nat.log2_zero] at hne hlog
      omega
    have hlow : num / den < Nat.pow 2 (num' / den).log2 := by
      rcases Nat.eq_zero_or_pos (num / den) with hzero | hpos'
      · rw [hzero]
        exact Nat.two_pow_pos _
      · exact (Nat.log2_lt (Nat.ne_of_gt hpos')).1 (Nat.lt_of_le_of_ne hlog hne)
    exact Nat.le_trans (f.round_le_two_pow hfinest hlow)
      (f.two_pow_le_round hfinest (Nat.log2_self_le hpos))

/-- What is at least one is not rounded to zero. -/
theorem round_ne_zero (hfinest : f.finest = 0) (hden : 0 < den) (h : den ≤ num) :
    f.round num den ≠ 0 := by
  have hone : Nat.pow 2 0 ≤ num / den := (Nat.one_le_div_iff hden).2 h
  exact Nat.ne_of_gt (f.two_pow_le_round (Nat.le_of_eq hfinest) hone)

theorem round_zero (den : Nat) : f.round 0 den = 0 := by
  rw [round, nearest_zero, Nat.zero_mul]

theorem round_mul_right {c : Nat} (hc : 0 < c) (num den : Nat) :
    f.round (num * c) (den * c) = f.round num den := by
  simp only [round, Nat.mul_div_mul_right _ _ hc, Nat.mul_right_comm den c,
    nearest_mul_right hc]

/-! ## 3. What needs no rounding -/

/-- A number of no more significant bits than the precision is held, from the finest step on. -/
theorem holds_mul_two_pow {n : Nat} (h : n ≤ Nat.pow 2 f.precision) (hfinest : f.finest ≤ k)
    (hlimit : f.precision + k < f.limit) : f.Holds (n * Nat.pow 2 k) := by
  simp only [Holds, Nat.pow_eq] at h ⊢
  have hp := f.precision_pos
  refine ⟨?_, ?_⟩
  · rcases Nat.eq_zero_or_pos n with rfl | hn
    · rw [Nat.zero_mul]
      exact Nat.dvd_zero _
    have hsignificant : (n * 2 ^ k).log2 = n.log2 + k := log2_mul_two_pow (by omega) k
    rcases Nat.lt_or_eq_of_le h with hlt | rfl
    · have hlog : n.log2 < f.precision := (Nat.log2_lt (by omega)).2 hlt
      have hstep : f.step (n * 2 ^ k) ≤ k := by
        rw [step, hsignificant]
        omega
      exact Nat.dvd_trans (Nat.pow_dvd_pow 2 hstep) (Nat.dvd_mul_left ..)
    · -- the next power of two has a single significant bit
      rw [← Nat.pow_add]
      refine Nat.pow_dvd_pow 2 ?_
      rw [step, Nat.log2_two_pow]
      omega
  · calc n * 2 ^ k
      _ ≤ 2 ^ f.precision * 2 ^ k := Nat.mul_le_mul_right _ h
      _ = 2 ^ (f.precision + k) := (Nat.pow_add ..).symm
      _ < 2 ^ f.limit := Nat.pow_lt_pow_right (by decide) hlimit

theorem round_of_holds_mul {n : Nat} (h : f.Holds n) (hden : 0 < den) :
    f.round (n * den) den = n := by
  have hscale := f.round_mul_right hden n 1
  rwa [Nat.one_mul, f.round_of_holds h] at hscale

/-! ## 4. Quotients of whole numbers -/

/-- What divides a power of two divides every other one that is not less than it. -/
theorem dvd_two_pow {n k l : Nat} (h : n ∣ Nat.pow 2 k) (hn : n ≤ Nat.pow 2 l) :
    n ∣ Nat.pow 2 l := by
  simp only [Nat.pow_eq] at h hn ⊢
  obtain ⟨j, -, rfl⟩ := (Nat.dvd_prime_pow Nat.prime_two).1 h
  exact Nat.pow_dvd_pow 2 ((Nat.pow_le_pow_iff_right (by decide)).1 hn)

/-- Beyond the finest step, the step goes by the last significant bit. -/
theorem two_pow_step_mul_le {n l : Nat} (hl : f.precision = l + 1) (h : f.finest < f.step n) :
    Nat.pow 2 (f.step n) * Nat.pow 2 l ≤ n := by
  have hstep : f.step n + l = n.log2 := by
    simp only [step] at h ⊢
    omega
  have hpos : n ≠ 0 := by
    rintro rfl
    rw [Nat.log2_zero] at hstep
    omega
  have hself := Nat.log2_self_le hpos
  rwa [← hstep, Nat.pow_add] at hself

/-- Near a quotient that is no whole number the steps are so short that as many of them as the
divisor says are less than two. -/
theorem mul_step_lt {m n u : Nat} (hm : m ≤ Nat.pow 2 f.precision)
    (hn : n ≤ Nat.pow 2 f.precision) (hdvd : ¬n ∣ m) (hu : f.finest + f.precision ≤ u) :
    n * Nat.pow 2 (f.step (m * Nat.pow 2 u / n)) < 2 * Nat.pow 2 u := by
  simp only [Nat.pow_eq] at hm hn ⊢
  have hp := f.precision_pos
  have hunit := Nat.two_pow_pos u
  have hquotient := Nat.mul_div_le (m * 2 ^ u) n
  generalize m * 2 ^ u / n = q at hquotient
  rcases Nat.lt_or_ge (u - f.precision) (f.step q) with hlarge | hsmall
  · obtain ⟨l, hl⟩ : ∃ l, f.precision = l + 1 := ⟨f.precision - 1, by omega⟩
    have hself := f.two_pow_step_mul_le hl (by omega : f.finest < f.step q)
    simp only [Nat.pow_eq] at hself
    rw [hl, Nat.pow_succ] at hm hn
    generalize f.step q = s at hself
    have hbound : n * 2 ^ s * 2 ^ l ≤ m * 2 ^ u :=
      calc n * 2 ^ s * 2 ^ l
        _ = n * (2 ^ s * 2 ^ l) := Nat.mul_assoc ..
        _ ≤ n * q := Nat.mul_le_mul_left n hself
        _ ≤ m * 2 ^ u := hquotient
    have hle : m * 2 ^ u ≤ 2 * 2 ^ u * 2 ^ l :=
      calc m * 2 ^ u
        _ ≤ 2 ^ l * 2 * 2 ^ u := Nat.mul_le_mul_right _ hm
        _ = 2 * 2 ^ u * 2 ^ l := by ac_rfl
    refine Nat.lt_of_le_of_ne
      (Nat.le_of_mul_le_mul_right (Nat.le_trans hbound hle) (Nat.two_pow_pos l)) ?_
    intro heq
    -- then the divisor is a power of two, and so is what it divides
    rw [heq] at hbound
    have hwhole : m = 2 ^ l * 2 := by
      refine Nat.eq_of_mul_eq_mul_right hunit (Nat.le_antisymm ?_ ?_)
      · exact Nat.mul_le_mul_right _ hm
      · exact Nat.le_trans (Nat.le_of_eq (by ac_rfl)) hbound
    have hpower : n ∣ 2 ^ (u + 1) := ⟨2 ^ s, by rw [heq, Nat.pow_succ, Nat.mul_comm]⟩
    rw [← Nat.pow_succ] at hwhole hn
    exact hdvd (hwhole ▸ dvd_two_pow hpower hn)
  · calc n * 2 ^ f.step q
      _ ≤ 2 ^ f.precision * 2 ^ (u - f.precision) :=
        Nat.mul_le_mul hn (Nat.pow_le_pow_right Nat.two_pos hsmall)
      _ = 2 ^ u := by rw [← Nat.pow_add, Nat.add_sub_cancel' (by omega)]
      _ < 2 * 2 ^ u := by omega

/-- The whole part of a rounded quotient is that of the quotient itself: rounding reaches the next
whole number only if the quotient is that number. -/
theorem round_quotient {m n u : Nat} (hm : m ≤ Nat.pow 2 f.precision)
    (hn : n ≤ Nat.pow 2 f.precision) (hpos : 0 < n) (hu : f.finest + f.precision ≤ u)
    (hlimit : f.precision + u < f.limit) :
    f.round (m * Nat.pow 2 u) n / Nat.pow 2 u = m / n := by
  have hunit : 0 < Nat.pow 2 u := Nat.two_pow_pos u
  by_cases hdvd : n ∣ m
  · obtain ⟨q, rfl⟩ := hdvd
    have hq : q ≤ Nat.pow 2 f.precision := Nat.le_trans (Nat.le_mul_of_pos_left q hpos) hm
    have hholds := f.holds_mul_two_pow hq (by omega) hlimit
    rw [Nat.mul_assoc, Nat.mul_comm n, f.round_of_holds_mul hholds hpos,
      Nat.mul_div_cancel _ hunit, Nat.mul_div_cancel_left _ hpos]
  · have hstep := f.mul_step_lt hm hn hdvd hu
    have hs : 0 < Nat.pow 2 (f.step (m * Nat.pow 2 u / n)) := Nat.two_pow_pos _
    have hnear := nearest_near (m * Nat.pow 2 u) (Nat.mul_pos hpos hs)
    have hrest : 0 < m % n := Nat.pos_of_ne_zero fun h => hdvd (Nat.dvd_of_mod_eq_zero h)
    have hless := Nat.mod_lt m hpos
    have hsum := Nat.div_add_mod m n
    simp only [round]
    generalize Nat.pow 2 (f.step (m * Nat.pow 2 u / n)) = s at hs hstep hnear
    generalize nearest (m * Nat.pow 2 u) (n * s) = r at hnear
    generalize Nat.pow 2 u = unit at hunit hstep hnear
    generalize m / n = q at hsum
    generalize m % n = t at hrest hless hsum
    have hm' : m * unit = n * (q * unit) + t * unit := by
      rw [← hsum, Nat.add_mul, Nat.mul_assoc]
    have hr : r * (n * s) = n * (r * s) := by ac_rfl
    have hlow : unit ≤ t * unit := Nat.le_mul_of_pos_left _ hrest
    have hhigh : t * unit + unit ≤ n * unit := by
      rw [← Nat.succ_mul]
      exact Nat.mul_le_mul_right _ hless
    rw [hm', hr] at hnear
    refine Nat.div_eq_of_lt_le ?_ ?_
    · refine Nat.le_of_lt (Nat.lt_of_mul_lt_mul_left (a := n) ?_)
      omega
    · refine Nat.lt_of_mul_lt_mul_left (a := n) ?_
      rw [Nat.succ_mul, Nat.mul_add]
      omega

end BinaryFormat

namespace Binary64

open BinaryFormat (binary64)

variable {x y : Binary64} {s t : Bool} {m n p q : Int}

/-! ## 5. Signs and places -/

theorem signed_eq_zero_iff {k : Nat} : signed s k = 0 ↔ k = 0 := by
  cases s with
  | false => exact Int.natCast_eq_zero
  | true => exact Int.neg_eq_zero.trans Int.natCast_eq_zero

theorem signed_lt_zero_iff {k : Nat} : signed s k < 0 ↔ s = true ∧ k ≠ 0 := by
  cases s with
  | false =>
    refine iff_of_false ?_ (by rintro ⟨h, -⟩; cases h)
    exact Int.not_lt.2 (Int.natCast_nonneg k)
  | true =>
    have hneg : signed true k = -(k : Int) := rfl
    rw [hneg]
    simp only [true_and]
    omega

theorem signed_natAbs (n : Int) : signed (n < 0) n.natAbs = n := by
  unfold signed
  split <;> rename_i hn
  · have hn : n < 0 := of_decide_eq_true hn
    omega
  · have hn : ¬n < 0 := of_decide_eq_false (Bool.eq_false_iff.2 hn)
    omega

theorem natAbs_signed (s : Bool) (k : Nat) : (signed s k).natAbs = k := by
  unfold signed
  split
  · exact Int.natAbs_neg k
  · rfl

theorem signed_not (s : Bool) (k : Nat) : signed (!s) k = -signed s k := by
  cases s with
  | false => rfl
  | true => exact (Int.neg_neg k).symm

theorem signed_mul (s : Bool) (k l : Nat) : signed s (k * l) = signed s k * l := by
  unfold signed
  split
  · rw [Int.natCast_mul, Int.neg_mul]
  · exact Int.natCast_mul k l

theorem pow_two_ne_zero (k : Nat) : Nat.pow 2 k ≠ 0 := Nat.ne_of_gt (Nat.two_pow_pos k)

theorem unit_pos : 0 < Nat.pow 2 unitExponent := Nat.pos_of_ne_zero (pow_two_ne_zero _)

/-- A fraction that is rounded to a number of the format is that number. -/
theorem ofFraction_of_round {k num den : Nat} (held : binary64.Holds k)
    (h : binary64.round num den = k) (s : Bool) : ofFraction s num den = .finite s k held := by
  subst h
  unfold ofFraction
  rw [dif_pos held.2]

theorem place?_ofFraction (s : Bool) (num den : Nat) :
    (ofFraction s num den).place? =
      some (signed s (min (binary64.round num den) (Nat.pow 2 binary64.limit))) := by
  unfold ofFraction
  split <;> rename_i h
  · rw [place?, Nat.min_eq_left (Nat.le_of_lt h)]
  · rw [place?, Nat.min_eq_right (Nat.le_of_not_lt h)]

/-- A rounded fraction is zero only if nothing of it is left, and has its sign otherwise. -/
theorem isZero_ofFraction (s : Bool) (num den : Nat) :
    (ofFraction s num den).isZero ↔ binary64.round num den = 0 := by
  have hlimit := pow_two_ne_zero binary64.limit
  rw [isZero, place?_ofFraction, beq_iff_eq, Option.some.injEq, signed_eq_zero_iff]
  generalize Nat.pow 2 binary64.limit = limit at hlimit
  omega

theorem isNegative_ofFraction (s : Bool) (num den : Nat) :
    (ofFraction s num den).isNegative ↔ s = true ∧ binary64.round num den ≠ 0 := by
  have hlimit := pow_two_ne_zero binary64.limit
  rw [isNegative, place?_ofFraction, Option.any_some, decide_eq_true_iff, signed_lt_zero_iff]
  generalize Nat.pow 2 binary64.limit = limit at hlimit
  generalize binary64.round num den = k
  rw [show min k limit ≠ 0 ↔ k ≠ 0 by omega]

/-- The number is finite and lies at the place. -/
def LiesAt (x : Binary64) (p : Int) : Prop := x.isFinite ∧ x.place? = some p

theorem LiesAt.exists_finite (h : x.LiesAt p) :
    ∃ s k held, x = .finite s k held ∧ p = signed s k := by
  obtain ⟨hfinite, hplace⟩ := h
  cases x with
  | finite s k held =>
    rw [place?, Option.some.injEq] at hplace
    exact ⟨s, k, held, rfl, hplace.symm⟩
  | infinite | nan => cases hfinite

theorem LiesAt.neg (h : x.LiesAt p) : x.neg.LiesAt (-p) := by
  obtain ⟨s, k, held, rfl, rfl⟩ := h.exists_finite
  refine ⟨rfl, ?_⟩
  rw [Binary64.neg, place?, signed_not]

/-! ## 6. Whole numbers -/

/-- The number is the whole number. -/
def IsWhole (x : Binary64) (n : Int) : Prop :=
  x.isFinite ∧ x.place? = some (n * (Nat.pow 2 unitExponent : Nat))

theorem IsWhole.liesAt (h : x.IsWhole n) : x.LiesAt (n * (Nat.pow 2 unitExponent : Nat)) := h

/-- A fraction that is a whole number of no more bits than the precision needs no rounding. -/
theorem isWhole_ofFraction (s : Bool) {k den : Nat} (hk : k ≤ Nat.pow 2 53) (hden : 0 < den) :
    (ofFraction s (k * Nat.pow 2 unitExponent * den) den).IsWhole (signed s k) := by
  have hholds : binary64.Holds (k * Nat.pow 2 unitExponent) :=
    BinaryFormat.holds_mul_two_pow _ hk (by decide) (by decide)
  have hround := BinaryFormat.round_of_holds_mul _ hholds hden
  rw [ofFraction_of_round hholds hround]
  refine ⟨rfl, ?_⟩
  rw [place?, signed_mul]

/-- Whole numbers of no more bits than the precision need no rounding. -/
theorem isWhole_ofInt (n : Int) (h : n.natAbs ≤ Nat.pow 2 53) : (ofInt n).IsWhole n := by
  have hwhole := isWhole_ofFraction (n < 0) h Nat.one_pos
  rwa [Nat.mul_one, signed_natAbs] at hwhole

/-- Whole numbers of 64 bits are rounded to finite numbers. -/
theorem isFinite_ofInt (n : Int) (h : n.natAbs < Nat.pow 2 64) : (ofInt n).isFinite := by
  have hlimit := binary64.round_mul_two_pow_lt (u := unitExponent) h (by decide) (by decide) 1
  rw [ofInt, ofFraction_of_round (binary64.holds_round hlimit) rfl]
  rfl

/-- Where a whole number is rounded to is given by its magnitude, in order, and its sign. -/
theorem place?_ofInt : ∃ place : Nat → Nat, (∀ k l, k ≤ l → place k ≤ place l) ∧
    ∀ n : Int, (ofInt n).place? = some (signed (n < 0) (place n.natAbs)) := by
  refine ⟨fun k => min (binary64.round (k * Nat.pow 2 unitExponent) 1)
    (Nat.pow 2 binary64.limit), fun k l h => ?_, fun n => place?_ofFraction ..⟩
  have hmono := binary64.round_mono (Nat.mul_le_mul_right (Nat.pow 2 unitExponent) h) 1
  generalize Nat.pow 2 binary64.limit = limit
  dsimp only
  omega

theorem exists_place?_ofInt (n : Int) : ∃ p, (ofInt n).place? = some p := by
  obtain ⟨place, -, hplace⟩ := place?_ofInt
  exact ⟨_, hplace n⟩

/-- Whole numbers are rounded in their order. -/
theorem place?_ofInt_mono (h : m ≤ n) (hp : (ofInt m).place? = some p)
    (hq : (ofInt n).place? = some q) : p ≤ q := by
  obtain ⟨place, hmono, hplace⟩ := place?_ofInt
  rw [hplace, Option.some.injEq] at hp hq
  rw [← hp, ← hq]
  by_cases hm : m < 0
  · by_cases hn : n < 0
    · have := hmono n.natAbs m.natAbs (by omega)
      simp only [signed, hm, hn, decide_true, if_true]
      omega
    · simp only [signed, hm, hn, decide_true, decide_false, if_true, Bool.false_eq_true, if_false]
      omega
  · have hn : ¬n < 0 := by omega
    have := hmono m.natAbs n.natAbs (by omega)
    simp only [signed, hm, hn, decide_false, Bool.false_eq_true, if_false]
    omega

theorem place?_ofInt_neg (hp : (ofInt n).place? = some p) :
    (ofInt (-n)).place? = some (-p) := by
  by_cases hzero : n = 0
  · subst hzero
    have hplace := (isWhole_ofInt 0 (Nat.zero_le _)).2
    rw [Int.zero_mul] at hplace
    rw [hplace, Option.some.injEq] at hp
    rw [Int.neg_zero, hplace, ← hp, Int.neg_zero]
  · obtain ⟨place, -, hplace⟩ := place?_ofInt
    have hsign : decide (-n < 0) = !decide (n < 0) := by
      rw [← decide_not, decide_eq_decide]
      omega
    rw [hplace, Option.some.injEq] at hp
    rw [hplace, Int.natAbs_neg, hsign, signed_not, hp]

end Binary64

end ExprCheck
