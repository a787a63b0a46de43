/-
ExprCheck.Proofs.Shortest — a float is read back from its text.

What is written of a number is the shortest decimal in the interval around it, so two things have
to be shown: that everything in the interval is rounded to the number (`round_of_contains`), and
that the search for a decimal comes to an end within the interval (`nearestOn_shortest`).

The interval goes half way to the neighbours. Below a power of two they are closer together than
above it, and a fraction is rounded by its own step, which need not be that of the number. Above
the number it is (`step_above`), and below it, it is the step of the number less one
(`step_below`), which is how the interval was made.

That the search finds something is due to the last grid alone: two of its points fit into half a
unit, so one lies between the number and the lower end. The powers of ten of the grids stay far
from those at which reading gives up on a decimal.

A text is read by taking its digits apart at the point. However the point was put among them, the
digits and the power of ten that are read give the decimal that was written (`read?_written`).
-/
import ExprCheck.Number.Constant
import ExprCheck.Proofs.Digits
import ExprCheck.Proofs.Rounding
import ExprCheck.Proofs.Stretches
import Mathlib.Data.Nat.GCD.Basic

namespace ExprCheck

namespace BinaryFormat

variable (f : BinaryFormat) {num den n k q : Nat}

/-! ## 1. Half a step away -/

/-- What is no more than a half away from a whole number is nearest to it, if half way only where
the whole number is even. -/
theorem nearest_eq (hlow : 2 * (k * den) ≤ 2 * num + den) (hhigh : 2 * num ≤ 2 * (k * den) + den)
    (hden : 0 < den)
    (hhalf : 2 * (k * den) = 2 * num + den ∨ 2 * num = 2 * (k * den) + den → k % 2 = 0) :
    nearest num den = k := by
  have hmod := Nat.div_add_mod' num den
  rcases Nat.lt_or_ge num (k * den) with hbelow | habove
  · obtain ⟨j, rfl⟩ : ∃ j, k = j + 1 := by
      refine ⟨k - 1, ?_⟩
      have : k ≠ 0 := by
        rintro rfl
        omega
      omega
    have hsucc : (j + 1) * den = j * den + den := Nat.succ_mul j den
    have hdiv : num / den = j := Nat.div_eq_of_lt_le (by omega) hbelow
    rw [hdiv] at hmod
    simp only [nearest, hdiv]
    split
    · omega
    · split
      · rfl
      · have := hhalf (.inl (by omega))
        omega
  · have hsucc : (k + 1) * den = k * den + den := Nat.succ_mul k den
    have hdiv : num / den = k := Nat.div_eq_of_lt_le habove (by omega)
    rw [hdiv] at hmod
    simp only [nearest, hdiv]
    split
    · rfl
    · split
      · omega
      · have := hhalf (.inr (by omega))
        omega

/-- A fraction is rounded to a whole number of its steps that is no more than half a step away. -/
theorem round_eq {s : Nat} (hstep : f.step (num / den) = s) (hden : 0 < den)
    (hdvd : Nat.pow 2 s ∣ n) (hlow : 2 * (n * den) ≤ 2 * num + Nat.pow 2 s * den)
    (hhigh : 2 * num ≤ 2 * (n * den) + Nat.pow 2 s * den)
    (hhalf : 2 * (n * den) = 2 * num + Nat.pow 2 s * den ∨
      2 * num = 2 * (n * den) + Nat.pow 2 s * den → n / Nat.pow 2 s % 2 = 0) :
    f.round num den = n := by
  have hs : 0 < Nat.pow 2 s := Nat.two_pow_pos s
  obtain ⟨k, rfl⟩ := hdvd
  rw [Nat.mul_div_cancel_left _ hs] at hhalf
  simp only [round, hstep]
  generalize Nat.pow 2 s = unit at *
  have hassoc : unit * k * den = k * (den * unit) := by ac_rfl
  have hcomm : unit * den = den * unit := Nat.mul_comm ..
  rw [hassoc, hcomm] at hlow hhigh hhalf
  rw [nearest_eq hlow hhigh (Nat.mul_pos hden hs) hhalf, Nat.mul_comm]

theorem step_mono {m n : Nat} (h : m ≤ n) : f.step m ≤ f.step n := by
  have := log2_mono h
  simp only [step]
  omega

/-- Of two multiples of a number one is ahead by at least that number. -/
theorem add_le_of_dvd {d m n : Nat} (hm : d ∣ m) (hn : d ∣ n) (h : m < n) : m + d ≤ n := by
  have := Nat.le_of_dvd (Nat.sub_pos_of_lt h) (Nat.dvd_sub hn hm)
  omega

/-- From a number of the format to the next, the step is that of the number. -/
theorem step_above (h : f.Holds n) (hn : n ≠ 0) (hlow : n ≤ q)
    (hhigh : q < n + Nat.pow 2 (f.step n)) : f.step q = f.step n := by
  refine Nat.le_antisymm ?_ (f.step_mono hlow)
  have hle : f.step n ≤ n.log2 := (Nat.le_log2 hn).2 (Nat.le_of_dvd (Nat.pos_of_ne_zero hn) h.1)
  -- the next power of two is a multiple of the step as well
  have hnext : n + Nat.pow 2 (f.step n) ≤ Nat.pow 2 (n.log2 + 1) :=
    add_le_of_dvd h.1 (Nat.pow_dvd_pow 2 (Nat.le_succ_of_le hle)) Nat.lt_log2_self
  have hlog : q.log2 < n.log2 + 1 :=
    (Nat.log2_lt (by omega)).2 (Nat.lt_of_lt_of_le hhigh hnext)
  simp only [step]
  omega

/-- Back to the number before, the step is that of the greatest whole number below. -/
theorem step_below (h : f.Holds n) (hlow : n ≤ q + Nat.pow 2 (f.step (n - 1))) (hhigh : q < n) :
    f.step q = f.step (n - 1) := by
  refine Nat.le_antisymm (f.step_mono (Nat.le_sub_one_of_lt hhigh)) ?_
  have hp := f.precision_pos
  rcases Nat.eq_zero_or_pos (n - 1) with hone | hpos
  · rw [hone]
    exact f.step_mono (Nat.zero_le q)
  rcases Nat.lt_or_ge f.finest ((n - 1).log2 + 1 - f.precision) with hcoarse | hfinest
  · -- the step divides the power of two below, which is therefore not passed on the way back
    have hle : f.step (n - 1) ≤ (n - 1).log2 := by
      simp only [step]
      omega
    have hself : Nat.pow 2 (n - 1).log2 < n :=
      Nat.lt_of_le_of_lt (Nat.log2_self_le (Nat.ne_of_gt hpos)) (by omega)
    have hdvd : Nat.pow 2 (f.step (n - 1)) ∣ n :=
      Nat.dvd_trans (Nat.pow_dvd_pow 2 (f.step_mono (Nat.sub_le n 1))) h.1
    have hprevious := add_le_of_dvd (Nat.pow_dvd_pow 2 hle) hdvd hself
    have hlog : (n - 1).log2 ≤ q.log2 := by
      have hq : Nat.pow 2 (n - 1).log2 ≤ q := by
        simp only [Nat.pow_eq] at hlow hprevious ⊢
        omega
      exact (Nat.le_log2 (Nat.ne_of_gt (Nat.lt_of_lt_of_le (Nat.two_pow_pos _) hq))).2 hq
    simp only [step]
    omega
  · simp only [step]
    omega

end BinaryFormat

namespace Binary64

open BinaryFormat (binary64)
open Text (isDigit ofDigits)

variable {n num den d : Nat} {e : Int}

/-- The interval reaches half a step back to the number before and half a step on to the next, and
has its ends if the number is an even multiple of its step. -/
theorem near_of_contains (h : (roundingInterval n).contains num den) :
    2 * (n * den) ≤ 2 * num + Nat.pow 2 (binary64.step (n - 1)) * den ∧
      2 * num ≤ 2 * (n * den) + Nat.pow 2 (binary64.step n) * den ∧
      (2 * (n * den) = 2 * num + Nat.pow 2 (binary64.step (n - 1)) * den ∨
          2 * num = 2 * (n * den) + Nat.pow 2 (binary64.step n) * den →
        n / Nat.pow 2 (binary64.step n) % 2 = 0) := by
  unfold Interval.contains roundingInterval at h
  dsimp only at h
  rw [Nat.sub_mul, Nat.add_mul, Nat.mul_assoc] at h
  split at h
  · rename_i hclosed
    simp only [Bool.and_eq_true, decide_eq_true_eq] at h
    exact ⟨by omega, by omega, fun _ => of_decide_eq_true hclosed⟩
  · simp only [Bool.and_eq_true, decide_eq_true_eq] at h
    exact ⟨by omega, by omega, by omega⟩

/-- What is less than half a step away lies in the interval. -/
theorem contains_of_within (hnum : 0 < num)
    (hlow : 2 * (n * den) < 2 * num + Nat.pow 2 (binary64.step (n - 1)) * den)
    (hhigh : 2 * num < 2 * (n * den) + Nat.pow 2 (binary64.step n) * den) :
    (roundingInterval n).contains num den := by
  unfold Interval.contains roundingInterval
  dsimp only
  rw [Nat.sub_mul, Nat.add_mul, Nat.mul_assoc]
  split <;> simp only [Bool.and_eq_true, decide_eq_true_eq] <;> omega

/-- What lies in the interval of a number is rounded to it. -/
theorem round_of_contains (hn : n ≠ 0) (hheld : binary64.Holds n) (hden : 0 < den)
    (h : (roundingInterval n).contains num den) : binary64.round num den = n := by
  obtain ⟨hlow, hhigh, heven⟩ := near_of_contains h
  rcases Nat.lt_or_ge num (n * den) with hbelow | habove
  · have hunit : 0 < Nat.pow 2 (binary64.step (n - 1)) * den :=
      Nat.mul_pos (Nat.two_pow_pos _) hden
    have hfiner : Nat.pow 2 (binary64.step (n - 1)) ∣ Nat.pow 2 (binary64.step n) :=
      Nat.pow_dvd_pow 2 (binary64.step_mono (Nat.sub_le n 1))
    have hstep : binary64.step (num / den) = binary64.step (n - 1) := by
      refine binary64.step_below hheld ?_ ((Nat.div_lt_iff_lt_mul hden).2 hbelow)
      have hquotient := @Nat.lt_div_mul_add num den hden
      refine Nat.le_of_not_lt fun hfar => ?_
      have hfar := Nat.mul_le_mul_right den (Nat.succ_le_of_lt hfar)
      rw [Nat.succ_mul, Nat.add_mul] at hfar
      omega
    refine binary64.round_eq hstep hden (Nat.dvd_trans hfiner hheld.1) hlow (by omega) ?_
    rintro (hhalf | hhalf)
    · have htwo := Nat.dvd_of_mod_eq_zero (heven (.inl hhalf))
      exact Nat.mod_eq_zero_of_dvd (Nat.dvd_trans htwo (Nat.div_dvd_div_left hheld.1 hfiner))
    · omega
  · have hunit : 0 < Nat.pow 2 (binary64.step n) * den := Nat.mul_pos (Nat.two_pow_pos _) hden
    have hstep : binary64.step (num / den) = binary64.step n := by
      refine binary64.step_above hheld hn ((Nat.le_div_iff_mul_le hden).2 habove) ?_
      rw [Nat.div_lt_iff_lt_mul hden, Nat.add_mul]
      omega
    refine binary64.round_eq hstep hden hheld.1 (by omega) hhigh ?_
    rintro (hhalf | hhalf)
    · omega
    · exact heven (.inr hhalf)

/-! ## 2. The search -/

theorem contains_of_nearestOn (h : nearestOn n e = some d) :
    (roundingInterval n).contains (d * (Nat.pow 10 e.toNat * Nat.pow 2 unitExponent))
      (Nat.pow 10 (-e).toNat) := by
  unfold nearestOn at h
  dsimp only at h
  split at h
  · rename_i hbelow habove
    split at h
    · cases h
      exact hbelow
    · cases h
      exact habove
  · rename_i hbelow _
    cases h
    exact hbelow
  · rename_i habove
    cases h
    exact habove
  · cases h

/-- Two points of the last grid fit into half a unit, so one of them lies within half a step
below the number. -/
theorem isSome_nearestOn_last (hn : n ≠ 0) : (nearestOn n (-324)).isSome := by
  have hfine : 2 * (Nat.pow 10 (-324 : Int).toNat * Nat.pow 2 unitExponent) ≤
      Nat.pow 10 (-(-324) : Int).toNat := by decide +kernel
  have hpos : 0 < Nat.pow 10 (-324 : Int).toNat * Nat.pow 2 unitExponent :=
    Nat.mul_pos (Nat.pow_pos (by decide)) unit_pos
  have hunit (m : Nat) : 0 < Nat.pow 2 (binary64.step m) := Nat.two_pow_pos _
  unfold nearestOn
  dsimp only
  generalize Nat.pow 10 (-324 : Int).toNat * Nat.pow 2 unitExponent = grid at *
  generalize Nat.pow 10 (-(-324) : Int).toNat = den at *
  have hbelow : (roundingInterval n).contains (n * den / grid * grid) den = true := by
    have hle := Nat.div_mul_le_self (n * den) grid
    have hlt := @Nat.lt_div_mul_add (n * den) grid hpos
    have hone : den ≤ n * den := Nat.le_mul_of_pos_left den (Nat.pos_of_ne_zero hn)
    have hback := Nat.le_mul_of_pos_left den (hunit (n - 1))
    have hon := Nat.le_mul_of_pos_left den (hunit n)
    exact contains_of_within (by omega) (by omega) (by omega)
  rw [hbelow]
  cases (roundingInterval n).contains ((n * den / grid + 1) * grid) den with
  | true =>
    dsimp only
    split <;> rfl
  | false => rfl

/-- The search ends on a grid of a moderate power of ten, with a decimal of that grid. -/
theorem nearestOn_shortest (hn : n ≠ 0) : -324 ≤ (shortest n).2 ∧ (shortest n).2 ≤ 308 ∧
    nearestOn n (shortest n).2 = some (shortest n).1 := by
  have hlast : (-324 : Int) ∈ gridExponents :=
    List.mem_map.2 ⟨632, List.mem_range.2 (by decide), rfl⟩
  obtain ⟨found, hfound⟩ : ∃ found,
      gridExponents.findSome? (fun e => (nearestOn n e).map (·, e)) = some found := by
    refine Option.isSome_iff_exists.1 (List.findSome?_isSome_iff.2 ⟨-324, hlast, ?_⟩)
    rw [Option.isSome_map]
    exact isSome_nearestOn_last hn
  obtain ⟨e, he, hhit⟩ := List.exists_of_findSome?_eq_some hfound
  obtain ⟨d, hd, rfl⟩ := Option.map_eq_some_iff.1 hhit
  obtain ⟨i, hi, rfl⟩ := List.mem_map.1 he
  have hi := List.mem_range.1 hi
  rw [shortest, hfound, Option.getD_some]
  exact ⟨by dsimp only; omega, by dsimp only; omega, hd⟩

/-- The decimal that the search finds is read as the number. -/
theorem ofDecimal_shortest (hn : n ≠ 0) (hheld : binary64.Holds n) (s : Bool) (length : Nat) :
    ofDecimal ⟨s, (shortest n).1, (shortest n).2⟩ length = .finite s n hheld := by
  obtain ⟨hleast, hgreatest, hfound⟩ := nearestOn_shortest hn
  have hden : 0 < Nat.pow 10 (-(shortest n).2).toNat := Nat.pow_pos (by decide)
  have hround := round_of_contains hn hheld hden (contains_of_nearestOn hfound)
  rw [← Nat.mul_assoc] at hround
  have hdigits : (shortest n).1 ≠ 0 := by
    intro hzero
    rw [hzero, Nat.zero_mul, Nat.zero_mul, binary64.round_zero] at hround
    exact hn hround.symm
  have hbound : decimalBound = 400 := rfl
  unfold ofDecimal
  dsimp only
  rw [if_neg hdigits, if_neg (by omega), if_neg (by omega)]
  exact ofFraction_of_round hheld hround s

/-- The digits that are written, and their power of ten, give a decimal that is read as the
number. -/
theorem exists_digitsOf (hheld : binary64.Holds n) : ∃ d e, e ≤ 308 ∧
    digitsOf n = (Nat.toDigits 10 d, (e + (Nat.toDigits 10 d).length - 1 : Int)) ∧
    ∀ s length, ofDecimal ⟨s, d, e⟩ length = .finite s n hheld := by
  unfold digitsOf
  by_cases hn : n = 0
  · subst hn
    rw [if_pos rfl]
    refine ⟨0, 0, by decide, rfl, fun s length => ?_⟩
    unfold ofDecimal
    dsimp only
    rw [if_pos rfl]
    exact ofFraction_of_round hheld (binary64.round_zero 1) s
  · rw [if_neg hn]
    have hgreatest := (nearestOn_shortest hn).2.1
    have hread := ofDecimal_shortest hn hheld
    generalize shortest n = found at *
    exact ⟨found.1, found.2, hgreatest, rfl, hread⟩

/-! ## 3. Texts -/

section Texts

variable (s : Bool) {cs ds whole fraction rest : List Char}

theorem readSign_of_head (h : ∀ c ∈ cs.head?, isDigit c = true) : readSign cs = (false, cs) := by
  unfold readSign
  split
  · cases h '-' rfl
  · cases h '+' rfl
  · rfl

theorem head?_toString (n : Nat) : ∀ c ∈ (toString n).toList.head?, isDigit c = true :=
  fun c hc => Text.isDigit_toString c (List.mem_of_head? hc)

theorem readExponent?_digits {n : Nat} (h : readSign cs = (s, (toString n).toList)) :
    readExponent? ('e' :: cs) = some (signed s n) := by
  have hne : ¬(toString n).toList.isEmpty := fun h =>
    Text.toString_ne_nil (List.isEmpty_iff.1 h)
  have hall : (toString n).toList.all isDigit := List.all_eq_true.2 Text.isDigit_toString
  unfold readExponent?
  dsimp only
  rw [h]
  dsimp only
  rw [if_pos ⟨.inl rfl, hne, hall⟩, Text.ofDigits_toString]

theorem readExponent?_toString : ∀ e : Int, readExponent? ('e' :: (toString e).toList) = some e
  | .ofNat n => readExponent?_digits false (readSign_of_head (head?_toString n))
  | .negSucc n => by
    have htext : (toString (Int.negSucc n)).toList = '-' :: (toString (n + 1)).toList := by
      show ("-" ++ toString (n + 1)).toList = _
      rw [String.toList_append]
      rfl
    rw [htext]
    have hsign : readSign ('-' :: (toString (n + 1)).toList) = (true, (toString (n + 1)).toList) :=
      rfl
    exact readExponent?_digits true hsign

theorem read?_of_magnitude {x : Binary64} (hhead : ∀ c ∈ cs.head?, isDigit c = true)
    (h : readMagnitude? s cs = some x) : read? ((if s then ['-'] else []) ++ cs) = some x := by
  have hsign : readSign ((if s then ['-'] else []) ++ cs) = (s, cs) := by
    cases s with
    | true => rfl
    | false => exact readSign_of_head hhead
  unfold read?
  rw [hsign]
  dsimp only
  rw [h]

theorem head?_append_of_ne (hwhole : ∀ c ∈ whole, isDigit c = true) (hne : whole ≠ []) :
    ∀ c ∈ (whole ++ rest).head?, isDigit c = true := by
  obtain ⟨d, ds, rfl⟩ := List.exists_cons_of_ne_nil hne
  rintro _ ⟨⟩
  exact hwhole d (List.mem_cons_self ..)

/-- Digits with a point among them are read as the digits without it, and a power of ten that is
less by as many as there are behind the point. -/
theorem read?_point (hwhole : ∀ c ∈ whole, isDigit c = true) (hne : whole ≠ [])
    (hfraction : ∀ c ∈ fraction, isDigit c = true) (hrest : ∀ c ∈ rest.head?, isDigit c = false)
    (hexponent : readExponent? rest = some e) :
    read? ((if s then ['-'] else []) ++ (whole ++ '.' :: (fraction ++ rest))) =
      some (ofDecimal ⟨s, ofDigits 10 (whole ++ fraction), e - fraction.length⟩
        (whole ++ fraction).length) := by
  refine read?_of_magnitude s (head?_append_of_ne hwhole hne) ?_
  have hpoint : ∀ c ∈ ('.' :: (fraction ++ rest)).head?, isDigit c = false := by
    rintro _ ⟨⟩
    rfl
  obtain ⟨hrun, hleft⟩ := Token.takeWhile_append_of_ends hwhole hpoint
  obtain ⟨hrun', hleft'⟩ := Token.takeWhile_append_of_ends hfraction hrest
  have hsome : (whole ++ fraction).isEmpty = false := by simp [hne]
  unfold readMagnitude?
  simp only [hrun, hleft, hrun', hleft']
  rw [if_neg (Bool.eq_false_iff.1 hsome), hexponent]
  rfl

theorem read?_point_end (hwhole : ∀ c ∈ whole, isDigit c = true) (hne : whole ≠ [])
    (hfraction : ∀ c ∈ fraction, isDigit c = true) :
    read? ((if s then ['-'] else []) ++ (whole ++ '.' :: fraction)) =
      some (ofDecimal ⟨s, ofDigits 10 (whole ++ fraction), -fraction.length⟩
        (whole ++ fraction).length) := by
  have hend : ∀ c ∈ ([] : List Char).head?, isDigit c = false := by
    rintro _ ⟨⟩
  have hnone : readExponent? [] = some 0 := rfl
  have hread := read?_point s hwhole hne hfraction hend hnone
  rwa [List.append_nil, Int.zero_sub] at hread

/-- Digits without a point are read as they are. -/
theorem read?_whole (hwhole : ∀ c ∈ whole, isDigit c = true) (hne : whole ≠ [])
    (hexponent : readExponent? ('e' :: rest) = some e) :
    read? ((if s then ['-'] else []) ++ (whole ++ 'e' :: rest)) =
      some (ofDecimal ⟨s, ofDigits 10 whole, e⟩ whole.length) := by
  refine read?_of_magnitude s (head?_append_of_ne hwhole hne) ?_
  have hend : ∀ c ∈ ('e' :: rest).head?, isDigit c = false := by
    rintro _ ⟨⟩
    rfl
  obtain ⟨hrun, hleft⟩ := Token.takeWhile_append_of_ends hwhole hend
  simp [readMagnitude?, hrun, hleft, hne, hexponent]

/-- A digit, a point and the other digits, or a single digit without a point. -/
theorem read?_scientificForm (hdigits : ∀ c ∈ ds, isDigit c = true) (hne : ds ≠ []) (e : Int) :
    ∃ length, read? ((if s then ['-'] else []) ++ scientificForm ds (e + ds.length - 1)) =
      some (ofDecimal ⟨s, ofDigits 10 ds, e⟩ length) := by
  have hexponent := readExponent?_toString (e + ds.length - 1)
  rcases ds with _ | ⟨c, _ | ⟨c', ds⟩⟩
  · exact absurd rfl hne
  · have hpower : e + ([c].length : Int) - 1 = e := by
      simp only [List.length_singleton]
      omega
    rw [hpower] at hexponent ⊢
    exact ⟨_, read?_whole s hdigits hne hexponent⟩
  · obtain ⟨hc, hds⟩ := List.forall_mem_cons.1 hdigits
    have hfirst : ∀ d ∈ [c], isDigit d = true := List.forall_mem_singleton.2 hc
    have hend : ∀ c ∈ ('e' :: (toString (e + ((c :: c' :: ds).length : Int) - 1)).toList).head?,
        isDigit c = false := by
      rintro _ ⟨⟩
      rfl
    have hpower : e + ((c :: c' :: ds).length : Int) - 1 - ((c' :: ds).length : Int) = e := by
      simp only [List.length_cons]
      omega
    have hread := read?_point s hfirst (List.cons_ne_nil c []) hds hend hexponent
    rw [hpower] at hread
    exact ⟨_, hread⟩

theorem ofFraction_mul_right {c : Nat} (hc : 0 < c) (num den : Nat) :
    ofFraction s (num * c) (den * c) = ofFraction s num den := by
  simp only [ofFraction, binary64.round_mul_right hc]

/-- Zeros behind the digits, one of them behind the point, are read like a power of ten. -/
theorem ofDecimal_zeros (d : Nat) {zeros : Nat} (h : (zeros : Int) ≤ decimalBound)
    (length length' : Nat) : ofDecimal ⟨s, d * Nat.pow 10 (zeros + 1), -1⟩ length =
      ofDecimal ⟨s, d, zeros⟩ length' := by
  have hbound : decimalBound = 400 := rfl
  unfold ofDecimal
  dsimp only
  by_cases hd : d = 0
  · subst hd
    rw [Nat.zero_mul, if_pos rfl, if_pos rfl]
  · have hten : 0 < Nat.pow 10 (zeros + 1) := Nat.pow_pos (by decide)
    rw [if_neg (Nat.mul_ne_zero hd (Nat.ne_of_gt hten)), if_neg (by omega), if_neg (by omega),
      if_neg hd, if_neg (by omega), if_neg (by omega)]
    have hone : Nat.pow 10 (-1 : Int).toNat = 1 := rfl
    have hden : Nat.pow 10 (-(-1) : Int).toNat = 1 * 10 := rfl
    have hden' : Nat.pow 10 (-(zeros : Int)).toNat = 1 := by
      rw [show (-(zeros : Int)).toNat = 0 by omega]
    have hsucc : Nat.pow 10 (zeros + 1) = Nat.pow 10 zeros * 10 := rfl
    have hnum : d * (Nat.pow 10 zeros * 10) * 1 * Nat.pow 2 unitExponent =
        d * Nat.pow 10 zeros * Nat.pow 2 unitExponent * 10 := by
      rw [Nat.mul_one, ← Nat.mul_assoc, Nat.mul_right_comm]
    rw [hone, hden, hden', hsucc, hnum, Int.toNat_natCast]
    exact ofFraction_mul_right s (by decide) _ _

theorem isDigit_zeros (zeros : Nat) : ∀ c ∈ List.replicate zeros '0', isDigit c = true := by
  intro c hc
  rw [List.eq_of_mem_replicate hc]
  rfl

/-- The point in front of the digits. -/
theorem read?_leading (hdigits : ∀ c ∈ ds, isDigit c = true) (zeros : Nat) :
    ∃ length, read? ((if s then ['-'] else []) ++
        '0' :: '.' :: (List.replicate zeros '0' ++ ds)) =
      some (ofDecimal ⟨s, ofDigits 10 ds, -(zeros + ds.length : Nat)⟩ length) := by
  have hread := read?_point_end s (isDigit_zeros 1) (List.cons_ne_nil '0' [])
    (List.forall_mem_append.2 ⟨isDigit_zeros zeros, hdigits⟩)
  have hvalue : ofDigits 10 (List.replicate 1 '0' ++ (List.replicate zeros '0' ++ ds)) =
      ofDigits 10 ds :=
    Text.ofDigits_zeros 10 (zeros + 1) ds
  rw [hvalue, List.length_append, List.length_replicate] at hread
  exact ⟨_, hread⟩

/-- The point among the digits. -/
theorem read?_splitting (hdigits : ∀ c ∈ ds, isDigit c = true) {k : Nat} (hk : ds.take k ≠ []) :
    ∃ length, read? ((if s then ['-'] else []) ++ (ds.take k ++ '.' :: ds.drop k)) =
      some (ofDecimal ⟨s, ofDigits 10 ds, -(ds.length - k : Nat)⟩ length) := by
  have hfront : ∀ c ∈ ds.take k, isDigit c = true := fun c hc =>
    hdigits c (List.mem_of_mem_take hc)
  have hbehind : ∀ c ∈ ds.drop k, isDigit c = true := fun c hc =>
    hdigits c (List.mem_of_mem_drop hc)
  have hread := read?_point_end s hfront hk hbehind
  rw [List.take_append_drop, List.length_drop] at hread
  exact ⟨_, hread⟩

/-- The point behind the digits. -/
theorem read?_trailing (hdigits : ∀ c ∈ ds, isDigit c = true) (hne : ds ≠ []) {zeros : Nat}
    (hzeros : (zeros : Int) ≤ decimalBound) :
    ∃ length, read? ((if s then ['-'] else []) ++
        (ds ++ List.replicate zeros '0' ++ '.' :: ['0'])) =
      some (ofDecimal ⟨s, ofDigits 10 ds, zeros⟩ length) := by
  have hread := read?_point_end s (List.forall_mem_append.2 ⟨hdigits, isDigit_zeros zeros⟩)
    (List.append_ne_nil_of_left_ne_nil hne _) (isDigit_zeros 1)
  have hvalue : ofDigits 10 (ds ++ List.replicate zeros '0' ++ List.replicate 1 '0') =
      ofDigits 10 ds * Nat.pow 10 (zeros + 1) := by
    rw [List.append_assoc, List.replicate_append_replicate, Text.ofDigits_append_zeros]
  rw [hvalue] at hread
  exact ⟨0, hread.trans (congrArg some (ofDecimal_zeros s _ hzeros _ 0))⟩

theorem read?_positionalForm (hdigits : ∀ c ∈ ds, isDigit c = true) (hne : ds ≠ []) {e : Int}
    (he : e ≤ decimalBound) :
    ∃ length, read? ((if s then ['-'] else []) ++ positionalForm ds (e + ds.length - 1)) =
      some (ofDecimal ⟨s, ofDigits 10 ds, e⟩ length) := by
  have hlength := List.length_pos_iff.2 hne
  unfold positionalForm
  by_cases hneg : e + (ds.length : Int) - 1 < 0
  · -- in front of the digits
    obtain ⟨zeros, hzeros⟩ : ∃ zeros : Nat, (-(e + (ds.length : Int) - 1) - 1).toNat = zeros :=
      ⟨_, rfl⟩
    have hread := read?_leading s hdigits zeros
    rw [show -((zeros + ds.length : Nat) : Int) = e by omega] at hread
    rwa [if_pos hneg, hzeros]
  rw [if_neg hneg]
  dsimp only
  rcases Int.lt_or_le e 0 with hsplit | hwhole
  · -- among the digits
    obtain ⟨k, hk⟩ : ∃ k : Nat, (e + (ds.length : Int) - 1).toNat + 1 = k := ⟨_, rfl⟩
    have hbehind : ¬(ds.drop k).isEmpty := by
      rw [List.isEmpty_iff, List.drop_eq_nil_iff]
      omega
    have hfront : ds.take k ≠ [] := by
      intro hnone
      rcases List.take_eq_nil_iff.1 hnone with hzero | hnil
      · omega
      · exact hne hnil
    have hread := read?_splitting s hdigits hfront
    rw [show -((ds.length - k : Nat) : Int) = e by omega] at hread
    rwa [hk, show k - ds.length = 0 by omega, List.replicate_zero, List.append_nil, if_neg hbehind]
  · -- behind the digits
    obtain ⟨zeros, rfl⟩ := Int.eq_ofNat_of_zero_le hwhole
    rw [show ((zeros : Int) + (ds.length : Int) - 1).toNat + 1 = ds.length + zeros by omega,
      List.drop_eq_nil_of_le (by omega), List.take_of_length_le (by omega), Nat.add_sub_cancel_left]
    exact read?_trailing s hdigits hne he

end Texts

/-- A number is read back from its text, wherever the point is put. -/
theorem read?_written (positional : Int → Bool) :
    ∀ x : Binary64, read? (written positional x).toList = some x
  | .finite s n hheld => by
    obtain ⟨d, e, he, hdigits, hread⟩ := exists_digitsOf hheld
    have hds := Text.isDigit_toDigits d
    have hscientific := read?_scientificForm s hds Nat.toDigits_ne_nil e
    have hpositional := read?_positionalForm s hds Nat.toDigits_ne_nil (Int.le_trans he (by decide))
    rw [Text.ofDigits_toDigits (by decide) (by decide)] at hscientific hpositional
    unfold written
    dsimp only
    rw [hdigits]
    dsimp only
    rw [String.toList_ofList]
    cases positional (e + (Nat.toDigits 10 d).length - 1) with
    | true =>
      obtain ⟨length, h⟩ := hpositional
      rw [if_pos rfl, h, hread]
    | false =>
      obtain ⟨length, h⟩ := hscientific
      rw [if_neg Bool.false_ne_true, h, hread]
  | .infinite false => by
    show read? "inf".toList = _
    decide
  | .infinite true => by
    show read? "-inf".toList = _
    decide
  | .nan => by
    show read? "NaN".toList = _
    decide

end Binary64

namespace Constant

/-- The text of a number stays finite exactly if the number does. -/
theorem textIsFiniteIn_scientific (bits : Nat) (x : Binary64) :
    textIsFiniteIn bits x.scientific = isFiniteIn bits x := by
  rw [textIsFiniteIn, Binary64.scientific, Binary64.read?_written, Option.any_some]

/-- Whether a float has room for a number can be told from the scientific text of the number. -/
theorem fits_eq (kind : NumberKind) (c : Constant) :
    c.fits kind = if kind.isFloat then textIsFiniteIn kind.bits c.toFloat.scientific
      else c.isInRange kind := by
  rw [fits, textIsFiniteIn_scientific]

end Constant

end ExprCheck
