/-
ExprCheck.Proofs.Digits — a number is read back from its digits.

The digits of a number are those of its quotient by the base, and one more for the
remainder. `toDigits_induction` goes by that, and what is said of digits here follows by
it. Bases go up to sixteen, as far as there are digits with a value.

Zeros in front of the digits add nothing to the number (`ofDigits_zeros`), and zeros behind them
are factors of the base (`ofDigits_append_zeros`). Nor does it matter whether letters among them
are great or small (`ofDigits_map_toLower`).
-/
import ExprCheck.Text.Digits

namespace ExprCheck.Text

variable {base : Nat}

/-- The digit that is written for a value is read as that value. -/
theorem digit_digitChar {d : Nat} (h : d < 16) :
    digitValue d.digitChar = d ∧ isHexDigit d.digitChar = true := by
  have hall : ∀ d : Fin 16,
      digitValue d.val.digitChar = d.val ∧ isHexDigit d.val.digitChar = true := by decide
  exact hall ⟨d, h⟩

theorem toDigits_induction {motive : Nat → List Char → Prop} (hbase : 1 < base)
    (digit : ∀ d < base, motive d [d.digitChar])
    (append : ∀ n ds, ∀ d < base, motive n ds → motive (n * base + d) (ds ++ [d.digitChar]))
    (n : Nat) : motive n (Nat.toDigits base n) := by
  induction n using Nat.strongRecOn with
  | ind n ih =>
    rw [Nat.toDigits_eq_if hbase]
    split
    · rename_i hn
      exact digit n hn
    · have hquotient : n / base < n := Nat.div_lt_self (by omega) hbase
      have happend := append _ _ (n % base) (Nat.mod_lt n (by omega)) (ih _ hquotient)
      rwa [Nat.div_add_mod'] at happend

theorem ofDigits_toDigits (hbase : 1 < base) (hle : base ≤ 16) (n : Nat) :
    ofDigits base (Nat.toDigits base n) = n := by
  refine toDigits_induction (motive := fun n ds => ofDigits base ds = n) hbase ?_ ?_ n
  · intro d hd
    simp [ofDigits, (digit_digitChar (Nat.lt_of_lt_of_le hd hle)).1]
  · intro n ds d hd ih
    rw [ofDigits] at ih
    simp [ofDigits, ih, (digit_digitChar (Nat.lt_of_lt_of_le hd hle)).1]

theorem isHexDigit_toDigits (hbase : 1 < base) (hle : base ≤ 16) (n : Nat) :
    ∀ c ∈ Nat.toDigits base n, isHexDigit c = true := by
  refine toDigits_induction (motive := fun _ ds => ∀ c ∈ ds, isHexDigit c = true) hbase ?_ ?_ n
  · intro d hd
    simpa using (digit_digitChar (Nat.lt_of_lt_of_le hd hle)).2
  · intro n ds d hd ih
    simp only [List.mem_append, List.mem_singleton]
    rintro c (hc | rfl)
    · exact ih c hc
    · exact (digit_digitChar (Nat.lt_of_lt_of_le hd hle)).2

theorem isDigit_of_isDigit {c : Char} (h : c.isDigit) : isDigit c = true := by
  simp only [Char.isDigit, Bool.and_eq_true, decide_eq_true_eq] at h
  simp only [isDigit, Bool.and_eq_true, decide_eq_true_eq]
  exact h

/-- There are ten decimal digits. -/
theorem exists_digitChar {c : Char} (h : isDigit c) : ∃ d < 10, c = Nat.digitChar d := by
  simp only [isDigit, Bool.and_eq_true, decide_eq_true_eq] at h
  have hlow : 48 ≤ c.toNat := h.1
  have hhigh : c.toNat ≤ 57 := h.2
  have hall : ∀ n < 58, 48 ≤ n → Char.ofNat n = Nat.digitChar (n - 48) := by decide
  refine ⟨c.toNat - 48, by omega, ?_⟩
  rw [← hall _ (by omega) hlow, Char.ofNat_toNat]

theorem isDigit_toDigits (n : Nat) : ∀ c ∈ Nat.toDigits 10 n, isDigit c = true := by
  intro c hc
  exact isDigit_of_isDigit (Nat.isDigit_of_mem_toDigits (by decide) (by decide) hc)

theorem isDigit_toString {n : Nat} : ∀ c ∈ (toString n).toList, isDigit c = true := by
  intro c hc
  rw [Nat.toString_eq_ofList_toDigits, String.toList_ofList] at hc
  exact isDigit_toDigits n c hc

theorem toString_ne_nil {n : Nat} : (toString n).toList ≠ [] := by
  rw [Nat.toString_eq_ofList_toDigits, String.toList_ofList]
  exact Nat.toDigits_ne_nil

theorem ofDigits_toString (n : Nat) : ofDigits 10 (toString n).toList = n := by
  rw [Nat.toString_eq_ofList_toDigits, String.toList_ofList]
  exact ofDigits_toDigits (by decide) (by decide) n

theorem ofDigits_zeros (base zeros : Nat) (ds : List Char) :
    ofDigits base (List.replicate zeros '0' ++ ds) = ofDigits base ds := by
  have hzero : digitValue '0' = 0 := rfl
  induction zeros with
  | zero => rfl
  | succ zeros ih => simpa [List.replicate_succ, ofDigits, hzero] using ih

/-- Zeros behind the digits are factors of the base. -/
theorem ofDigits_append_zeros (base zeros : Nat) (ds : List Char) :
    ofDigits base (ds ++ List.replicate zeros '0') = ofDigits base ds * Nat.pow base zeros := by
  have hzero : digitValue '0' = 0 := rfl
  induction zeros with
  | zero => simp
  | succ zeros ih =>
    have happend (ds : List Char) : ofDigits base (ds ++ ['0']) = ofDigits base ds * base := by
      simp [ofDigits, hzero]
    rw [List.replicate_succ', ← List.append_assoc, happend, ih, Nat.mul_assoc]
    rfl

/-- A letter is the same digit in either case. -/
theorem digit_toLower (c : Char) :
    digitValue c.toLower = digitValue c ∧ isHexDigit c.toLower = isHexDigit c := by
  by_cases hc : c.toNat < 128
  · have hall : ∀ n < 128, digitValue (Char.ofNat n).toLower = digitValue (Char.ofNat n) ∧
        isHexDigit (Char.ofNat n).toLower = isHexDigit (Char.ofNat n) := by decide +kernel
    simpa only [Char.ofNat_toNat] using hall _ hc
  · -- only letters of ASCII change
    have hsame : c.toLower = c := by
      unfold Char.toLower
      rw [dif_neg]
      rintro ⟨-, hle⟩
      have hletter : c.toNat ≤ 90 := hle
      omega
    rw [hsame]
    exact ⟨rfl, rfl⟩

theorem ofDigits_map_toLower (base : Nat) (ds : List Char) :
    ofDigits base (ds.map Char.toLower) = ofDigits base ds := by
  simp only [ofDigits, List.foldl_map, (digit_toLower _).1]

/-- Digits are read as the number that they write, where it is in bounds. -/
theorem readNat?_eq {p : Char → Bool} {bound : Nat} {ds : List Char} (hplus : p '+' = false)
    (hne : ds ≠ []) (hds : ∀ c ∈ ds, p c = true) (hbound : ofDigits base ds < bound) :
    readNat? p base bound ds = some (ofDigits base ds) := by
  have hhead : ds.head? ≠ some '+' := by
    intro hhead
    have hdigit := hds '+' (List.mem_of_head? hhead)
    rw [hplus] at hdigit
    cases hdigit
  have hempty : ds.isEmpty = false := List.isEmpty_eq_false_iff.2 hne
  have hall : ds.all p = true := List.all_eq_true.2 hds
  simp [readNat?, hhead, hempty, hall, hbound]

end ExprCheck.Text
