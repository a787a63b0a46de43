/-
ExprCheck.Proofs.Floats — arithmetic on floats, on the line of places.

An operation on two finite floats is one rounding of a fraction of units, and the fraction is the
sum or product of the places (`add_of_liesAt`, `mul_of_liesAt`). Two things follow for each
operation: its sign, which is that of the fraction unless the fraction is rounded to zero
(`sign_add`, `sign_sub`, `sign_mul`), and its value where it is a whole number that needs no
rounding (`IsWhole.add`, `IsWhole.sub`, `IsWhole.mul`). Of a quotient there is only the whole
part (`IsWhole.truncatesTo_div`).

A whole number that is rounded keeps its sign (`sign_place?_ofInt`) but not its difference from
others: `place?_ofInt_lt_iff` says that a smaller number lies before a greater one unless both are
rounded to the same float.
-/
import ExprCheck.Proofs.Rounding

namespace ExprCheck.Binary64

open BinaryFormat (binary64)

variable {x y : Binary64} {m n p q : Int}

/-! ## 1. Numbers with a sign -/

theorem signed_mul_signed (s t : Bool) (k l : Nat) :
    signed s k * signed t l = signed (s != t) (k * l) := by
  rw [signed_mul]
  cases s with
  | false =>
    cases t with
    | false => rfl
    | true => exact (Int.mul_neg ..).trans (Int.neg_mul ..).symm
  | true =>
    cases t with
    | false => rfl
    | true => exact Int.neg_mul_neg ..

theorem signed_tdiv_signed (s t : Bool) (k l : Nat) :
    (signed s k).tdiv (signed t l) = signed (s != t) (k / l) := by
  have hdiv : (k : Int).tdiv l = (k / l : Nat) := (Int.ofNat_tdiv k l).symm
  cases s with
  | false =>
    cases t with
    | false => exact hdiv
    | true => exact (Int.tdiv_neg ..).trans (congrArg _ hdiv)
  | true =>
    cases t with
    | false => exact (Int.neg_tdiv ..).trans (congrArg _ hdiv)
    | true => exact (Int.neg_tdiv_neg ..).trans hdiv

/-- A flag that does not contradict the number is its sign. -/
theorem signed_of_flag {s : Bool} (hs : s = true → n ≤ 0) (hs' : s = false → 0 ≤ n) :
    signed s n.natAbs = n := by
  cases s with
  | false => exact Int.natAbs_of_nonneg (hs' rfl)
  | true =>
    have := hs rfl
    show -(n.natAbs : Int) = n
    omega

/-! ## 2. Sums and products -/

theorem finite_add_finite (s t : Bool) (k l : Nat) (hk : binary64.Holds k)
    (hl : binary64.Holds l) : finite s k hk + finite t l hl =
      ofFraction (signed s k + signed t l < 0 || (signed s k + signed t l == 0 && s && t))
        (signed s k + signed t l).natAbs 1 := by
  show add _ _ = _
  simp only [add]

theorem finite_mul_finite (s t : Bool) (k l : Nat) (hk : binary64.Holds k)
    (hl : binary64.Holds l) : finite s k hk * finite t l hl =
      ofFraction (s != t) (k * l) (Nat.pow 2 unitExponent) := by
  show mul _ _ = _
  simp only [mul]

theorem finite_div_finite (s t : Bool) (k : Nat) {l : Nat} (hk : binary64.Holds k)
    (hl : binary64.Holds l) (hzero : l ≠ 0) : finite s k hk / finite t l hl =
      ofFraction (s != t) (k * Nat.pow 2 unitExponent) l := by
  show div _ _ = _
  simp only [div, if_neg hzero]

/-- A sum is the rounded sum of the places. -/
theorem add_of_liesAt (hx : x.LiesAt p) (hy : y.LiesAt q) :
    ∃ s, x + y = ofFraction s (p + q).natAbs 1 ∧ signed s (p + q).natAbs = p + q := by
  obtain ⟨s, k, held, rfl, rfl⟩ := hx.exists_finite
  obtain ⟨t, l, held', rfl, rfl⟩ := hy.exists_finite
  refine ⟨_, finite_add_finite .., signed_of_flag (fun hs => ?_) fun hs => ?_⟩
  · rcases Bool.or_eq_true_iff.1 hs with h | h
    · exact Int.le_of_lt (of_decide_eq_true h)
    · simp only [Bool.and_eq_true, beq_iff_eq] at h
      exact Int.le_of_eq h.1.1
  · exact Int.not_lt.1 (of_decide_eq_false (Bool.or_eq_false_iff.1 hs).1)

/-- A product is the rounded product of the places, in units. -/
theorem mul_of_liesAt (hx : x.LiesAt p) (hy : y.LiesAt q) :
    ∃ s, x * y = ofFraction s (p.natAbs * q.natAbs) (Nat.pow 2 unitExponent) ∧
      signed s (p.natAbs * q.natAbs) = p * q := by
  obtain ⟨s, k, held, rfl, rfl⟩ := hx.exists_finite
  obtain ⟨t, l, held', rfl, rfl⟩ := hy.exists_finite
  rw [natAbs_signed, natAbs_signed, signed_mul_signed]
  exact ⟨s != t, finite_mul_finite .., rfl⟩

/-- A rounded fraction that is not rounded to zero has the sign of the fraction. -/
theorem sign_ofFraction {s : Bool} {num den : Nat} (hs : signed s num = n)
    (hround : num ≠ 0 → binary64.round num den ≠ 0) :
    ((ofFraction s num den).isZero ↔ n = 0) ∧ ((ofFraction s num den).isNegative ↔ n < 0) := by
  have hzero : binary64.round num den = 0 ↔ num = 0 := by
    refine ⟨fun h => ?_, fun h => ?_⟩
    · by_cases hnum : num = 0
      · exact hnum
      · exact absurd h (hround hnum)
    · rw [h]
      exact binary64.round_zero den
  rw [isZero_ofFraction, isNegative_ofFraction, ne_eq, hzero, ← hs, signed_eq_zero_iff,
    signed_lt_zero_iff]
  exact ⟨Iff.rfl, Iff.rfl⟩

/-- A sum has the sign of the sum of the places. -/
theorem sign_add (hx : x.LiesAt p) (hy : y.LiesAt q) :
    ((x + y).isZero ↔ p + q = 0) ∧ ((x + y).isNegative ↔ p + q < 0) := by
  obtain ⟨s, hsum, hs⟩ := add_of_liesAt hx hy
  rw [hsum]
  refine sign_ofFraction hs fun h => ?_
  exact binary64.round_ne_zero rfl Nat.one_pos (Nat.one_le_iff_ne_zero.2 h)

theorem sign_sub (hx : x.LiesAt p) (hy : y.LiesAt q) :
    ((x - y).isZero ↔ p - q = 0) ∧ ((x - y).isNegative ↔ p - q < 0) := by
  rw [Int.sub_eq_add_neg]
  exact sign_add hx hy.neg

/-- A product of numbers that are not within one of zero has the sign of the product of the
places. -/
theorem sign_mul (hx : x.LiesAt p) (hy : y.LiesAt q)
    (hp : p ≠ 0 → Nat.pow 2 unitExponent ≤ p.natAbs) :
    ((x * y).isZero ↔ p * q = 0) ∧ ((x * y).isNegative ↔ p * q < 0) := by
  obtain ⟨s, hproduct, hs⟩ := mul_of_liesAt hx hy
  rw [hproduct]
  refine sign_ofFraction hs fun h => ?_
  obtain ⟨hp', hq'⟩ := Nat.mul_ne_zero_iff.1 h
  refine binary64.round_ne_zero rfl unit_pos ?_
  exact Nat.le_trans (hp (Int.natAbs_ne_zero.1 hp'))
    (Nat.le_mul_of_pos_right _ (Nat.pos_of_ne_zero hq'))

/-! ## 3. Whole numbers -/

theorem natAbs_mul_two_pow (n : Int) (u : Nat) :
    (n * (Nat.pow 2 u : Nat)).natAbs = n.natAbs * Nat.pow 2 u := by
  rw [Int.natAbs_mul, Int.natAbs_natCast]

theorem signed_of_mul {s : Bool} {k d : Nat} (hd : d ≠ 0) (h : signed s (k * d) = n * d) :
    signed s k = n := by
  rw [signed_mul] at h
  exact Int.eq_of_mul_eq_mul_right (Int.natCast_ne_zero.2 hd) h

theorem IsWhole.neg (h : y.IsWhole n) : y.neg.IsWhole (-n) := by
  have hneg := h.liesAt.neg
  rwa [← Int.neg_mul] at hneg

/-- Sums of whole numbers are exact as long as they need no rounding. -/
theorem IsWhole.add (hx : x.IsWhole m) (hy : y.IsWhole n) (h : (m + n).natAbs ≤ Nat.pow 2 53) :
    (x + y).IsWhole (m + n) := by
  obtain ⟨s, hsum, hs⟩ := add_of_liesAt hx.liesAt hy.liesAt
  rw [← Int.add_mul, natAbs_mul_two_pow] at hsum hs
  have hwhole := isWhole_ofFraction s h Nat.one_pos
  rwa [Nat.mul_one, ← hsum, signed_of_mul (pow_two_ne_zero _) hs] at hwhole

theorem IsWhole.sub (hx : x.IsWhole m) (hy : y.IsWhole n) (h : (m - n).natAbs ≤ Nat.pow 2 53) :
    (x - y).IsWhole (m - n) := by
  rw [Int.sub_eq_add_neg] at h ⊢
  exact hx.add hy.neg h

theorem IsWhole.mul (hx : x.IsWhole m) (hy : y.IsWhole n) (h : (m * n).natAbs ≤ Nat.pow 2 53) :
    (x * y).IsWhole (m * n) := by
  obtain ⟨s, hproduct, hs⟩ := mul_of_liesAt hx.liesAt hy.liesAt
  have hnum : (m * (Nat.pow 2 unitExponent : Nat)).natAbs *
      (n * (Nat.pow 2 unitExponent : Nat)).natAbs =
        (m * n).natAbs * Nat.pow 2 unitExponent * Nat.pow 2 unitExponent := by
    rw [natAbs_mul_two_pow, natAbs_mul_two_pow, Int.natAbs_mul]
    generalize Nat.pow 2 unitExponent = unit
    ac_rfl
  rw [hnum] at hproduct hs
  have hsign : signed s (m * n).natAbs = m * n := by
    refine signed_of_mul (pow_two_ne_zero unitExponent)
      (signed_of_mul (pow_two_ne_zero unitExponent) ?_)
    rw [hs]
    generalize (Nat.pow 2 unitExponent : Int) = unit
    ac_rfl
  have hwhole := isWhole_ofFraction s h unit_pos
  rwa [← hproduct, hsign] at hwhole

/-! ## 4. Truncation -/

/-- Without its fraction the number is the whole number. -/
def TruncatesTo (x : Binary64) (n : Int) : Prop :=
  ∀ lo hi, x.truncateTo lo hi = max lo (min hi n)

theorem truncatesTo_ofFraction (s : Bool) {num den k : Nat}
    (hlimit : binary64.round num den < Nat.pow 2 binary64.limit)
    (hround : binary64.round num den / Nat.pow 2 unitExponent = k) :
    (ofFraction s num den).TruncatesTo (signed s k) := by
  intro lo hi
  rw [ofFraction_of_round (binary64.holds_round hlimit) rfl, truncateTo, hround]

theorem IsWhole.exists_finite (h : x.IsWhole n) :
    ∃ s k held, x = .finite s k held ∧ k = n.natAbs * Nat.pow 2 unitExponent ∧
      signed s n.natAbs = n := by
  obtain ⟨s, k, held, rfl, hk⟩ := h.liesAt.exists_finite
  have habs : k = n.natAbs * Nat.pow 2 unitExponent := by
    rw [← natAbs_mul_two_pow, hk, natAbs_signed]
  refine ⟨s, k, held, rfl, habs, ?_⟩
  rw [habs] at hk
  exact signed_of_mul (pow_two_ne_zero _) hk.symm

theorem IsWhole.truncatesTo (h : x.IsWhole n) : x.TruncatesTo n := by
  obtain ⟨s, k, held, rfl, hk, hs⟩ := h.exists_finite
  intro lo hi
  rw [truncateTo, hk, Nat.mul_div_cancel _ unit_pos, hs]

/-- Without its fraction the quotient of two whole numbers that need no rounding is their truncated
quotient. -/
theorem IsWhole.truncatesTo_div (hx : x.IsWhole m) (hy : y.IsWhole n)
    (hm : m.natAbs ≤ Nat.pow 2 53) (hn : n.natAbs ≤ Nat.pow 2 53) (hzero : n ≠ 0) :
    (x / y).TruncatesTo (m.tdiv n) := by
  obtain ⟨s, k, held, rfl, hk, hs⟩ := hx.exists_finite
  obtain ⟨t, l, held', rfl, hl, ht⟩ := hy.exists_finite
  have hpos : 0 < n.natAbs := Int.natAbs_pos.2 hzero
  have hl0 : l ≠ 0 := by
    rw [hl]
    exact Nat.ne_of_gt (Nat.mul_pos hpos unit_pos)
  -- the unit is in both numbers
  have hround : binary64.round (k * Nat.pow 2 unitExponent) l =
      binary64.round (m.natAbs * Nat.pow 2 unitExponent) n.natAbs := by
    rw [hk, hl]
    exact binary64.round_mul_right unit_pos _ _
  have hlimit := binary64.round_mul_two_pow_lt (k := 54) (u := unitExponent)
    (Nat.lt_of_le_of_lt hm (by decide)) (by decide) (by decide) n.natAbs
  have hquotient := binary64.round_quotient (u := unitExponent) hm hn hpos (by decide) (by decide)
  rw [← hround] at hlimit hquotient
  rw [finite_div_finite s t k held held' hl0, ← hs, ← ht, signed_tdiv_signed]
  exact truncatesTo_ofFraction (s != t) hlimit hquotient

/-! ## 5. Rounded whole numbers -/

/-- A positive factor does not change the sign. -/
theorem sign_mul_natCast {d : Nat} (hd : d ≠ 0) (n : Int) :
    (n * d = 0 ↔ n = 0) ∧ (n * d < 0 ↔ n < 0) := by
  have hd' : (d : Int) ≠ 0 := Int.natCast_ne_zero.2 hd
  have hpos : (0 : Int) < d := by omega
  have hsign : n * d < 0 * d ↔ n < 0 := Int.mul_lt_mul_right hpos
  rw [Int.zero_mul] at hsign
  exact ⟨Int.mul_eq_zero.trans (or_iff_left hd'), hsign⟩

theorem sign_ofInt (n : Int) : ((ofInt n).isZero ↔ n = 0) ∧ ((ofInt n).isNegative ↔ n < 0) := by
  have hs : signed (n < 0) (n.natAbs * Nat.pow 2 unitExponent) =
      n * (Nat.pow 2 unitExponent : Nat) := by
    rw [signed_mul, signed_natAbs]
  obtain ⟨hzero, hnegative⟩ := sign_ofFraction hs fun h =>
    BinaryFormat.binary64.round_ne_zero rfl Nat.one_pos (Nat.one_le_iff_ne_zero.2 h)
  obtain ⟨hzero', hnegative'⟩ := sign_mul_natCast (pow_two_ne_zero unitExponent) n
  exact ⟨hzero.trans hzero', hnegative.trans hnegative'⟩

/-- Only zero has two forms at its place. -/
theorem eq_of_liesAt (hx : x.LiesAt p) (hy : y.LiesAt p) (hp : p ≠ 0) : x = y := by
  obtain ⟨s, k, held, rfl, rfl⟩ := hx.exists_finite
  obtain ⟨t, l, held', rfl, hp'⟩ := hy.exists_finite
  have hunits : k = l := by rw [← natAbs_signed s k, hp', natAbs_signed]
  subst hunits
  have hk : k ≠ 0 := fun h => hp (signed_eq_zero_iff.2 h)
  have hsign : s = t := by
    rw [Bool.eq_iff_iff, ← and_iff_left (a := s = true) hk, ← signed_lt_zero_iff, hp',
      signed_lt_zero_iff, and_iff_left hk]
  subst hsign
  rfl

/-- Whole numbers at one place are one number. -/
theorem ofInt_eq_of_place? (hm : m.natAbs < Nat.pow 2 64) (hn : n.natAbs < Nat.pow 2 64)
    (hp : (ofInt m).place? = some p) (hq : (ofInt n).place? = some p) : ofInt m = ofInt n := by
  by_cases hzero : p = 0
  · have hm' := (sign_ofInt m).1.1 (by rw [isZero, hp, hzero]; rfl)
    have hn' := (sign_ofInt n).1.1 (by rw [isZero, hq, hzero]; rfl)
    rw [hm', hn']
  · exact eq_of_liesAt ⟨isFinite_ofInt m hm, hp⟩ ⟨isFinite_ofInt n hn, hq⟩ hzero

/-- Of two whole numbers the lesser one is rounded to the lesser place, unless they are rounded to
one number. -/
theorem place?_ofInt_lt_iff (hm : m.natAbs < Nat.pow 2 64) (hn : n.natAbs < Nat.pow 2 64)
    (hp : (ofInt m).place? = some p) (hq : (ofInt n).place? = some q) :
    p < q ↔ m < n ∧ ofInt m ≠ ofInt n := by
  refine ⟨fun hlt => ⟨?_, ?_⟩, fun ⟨hlt, hne⟩ => ?_⟩
  · refine Int.not_le.1 fun hle => ?_
    have := place?_ofInt_mono hle hq hp
    omega
  · intro heq
    rw [heq, hq, Option.some.injEq] at hp
    omega
  · refine Int.lt_iff_le_and_ne.2 ⟨place?_ofInt_mono (Int.le_of_lt hlt) hp hq, ?_⟩
    rintro rfl
    exact hne (ofInt_eq_of_place? hm hn hp hq)

/-- Whole numbers that need no rounding stay apart. -/
theorem ofInt_inj (hm : m.natAbs ≤ Nat.pow 2 53) (hn : n.natAbs ≤ Nat.pow 2 53)
    (h : ofInt m = ofInt n) : m = n := by
  have hplace := (isWhole_ofInt m hm).2
  rw [h, (isWhole_ofInt n hn).2, Option.some.injEq] at hplace
  exact (Int.eq_of_mul_eq_mul_right (Int.natCast_ne_zero.2 (pow_two_ne_zero _)) hplace).symm

theorem sign_place?_ofInt (hp : (ofInt n).place? = some p) :
    (p = 0 ↔ n = 0) ∧ (p < 0 ↔ n < 0) := by
  obtain ⟨hzero, hnegative⟩ := sign_ofInt n
  rw [isZero, hp, beq_iff_eq, Option.some.injEq] at hzero
  rw [isNegative, hp, Option.any_some, decide_eq_true_iff] at hnegative
  exact ⟨hzero, hnegative⟩

/-- Whole numbers are not rounded to anything between zero and one. -/
theorem le_natAbs_of_place?_ofInt (hp : (ofInt n).place? = some p) (hzero : p ≠ 0) :
    Nat.pow 2 unitExponent ≤ p.natAbs := by
  have hn : n ≠ 0 := fun h => hzero ((sign_place?_ofInt hp).1.2 h)
  have hone := (isWhole_ofInt 1 (by decide)).2
  have hneg := place?_ofInt_neg hone
  rw [Int.one_mul] at hone hneg
  rcases Int.lt_or_gt_of_ne hn with hlt | hgt
  · have := place?_ofInt_mono (show n ≤ -1 by omega) hp hneg
    generalize Nat.pow 2 unitExponent = unit at this
    omega
  · have := place?_ofInt_mono (show 1 ≤ n by omega) hone hp
    generalize Nat.pow 2 unitExponent = unit at this
    omega

end ExprCheck.Binary64
