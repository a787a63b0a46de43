/-
ExprCheck.Proofs.Folding — operators on constants.

Integers are folded in words of 64 bits, signed or unsigned by the form of the left operand,
and the outcome is brought to the form of its kind. On whole numbers both steps are one
function: `NumberKind.wrap` takes a number into the range of the words of a kind, by a
multiple of 2 ^ 64, and leaves it where it is if it lies in that range already
(`wrap_of_holds`). So what becomes of integers is said by where they are wrapped: a remainder
wraps the right operand (`integer?_remainder`), a shift to the right wraps nothing
(`integer?_shiftRight`), and a cast wraps its outcome (`integer?_cast_eq`).

The second half is about the order of the operands. Sums, products and comparisons for
equality do not depend on it, whatever the constants are. Joined bits do not either, once they
are brought to the form of an integer kind (`cast_bitwise_comm`), although the form before
that is the left operand's.
-/
import ExprCheck.Proofs.Resolve
import ExprCheck.Proofs.Rounding

namespace ExprCheck

/-! ## 1. Words -/

namespace NumberKind

/-- The kind of 64 bits of the same family. -/
def widest (k : NumberKind) : NumberKind :=
  if k.isFloat then .f64 else if k.isSigned then .i64 else .u64

/-- The whole number that a word of an integer kind's family has for `n`. -/
def wrap (k : NumberKind) (n : Int) : Int :=
  if k.isSigned then n.bmod UInt64.size else n % UInt64.size

theorem isFloat_of_isInteger {k : NumberKind} (h : k.isInteger) : k.isFloat = false := by
  simpa [isInteger] using h

theorem widest_eq {k : NumberKind} (hk : k.isInteger) :
    k.widest = if k.isSigned then .i64 else .u64 := by
  rw [widest, isFloat_of_isInteger hk, if_neg Bool.false_ne_true]

/-- What has room is not changed. -/
theorem wrap_of_holds {k : NumberKind} {n : Int} (hk : k.isInteger) (h : k.widest.Holds n) :
    k.wrap n = n := by
  rw [widest_eq hk] at h
  unfold wrap
  split <;> rename_i hs
  · rw [if_pos hs] at h
    have hlow : -9223372036854775808 ≤ n := h.1
    have hhigh : n ≤ 9223372036854775807 := h.2
    exact Int.bmod_eq_of_le (by simp; omega) (by simp; omega)
  · rw [if_neg hs] at h
    have hlow : 0 ≤ n := h.1
    have hhigh : n ≤ 18446744073709551615 := h.2
    exact Int.emod_eq_of_lt hlow (by simp; omega)

end NumberKind

namespace Constant

variable {a b c : Constant} {m n : Int}

theorem toInt_toInt64 (h : c.integer? = some n) : c.toInt64.toInt = n.bmod UInt64.size := by
  cases c with
  | signed x =>
    cases h
    exact x.toInt_bmod_size.symm
  | unsigned x =>
    cases h
    exact x.toBitVec.toInt_eq_toNat_bmod
  | float | bool | str => cases h

theorem toNat_toUInt64 (h : c.integer? = some n) : (c.toUInt64.toNat : Int) = n % UInt64.size := by
  cases c with
  | signed x =>
    cases h
    have hword : x.toInt = x.toBitVec.toInt := rfl
    have hlt := x.toUInt64.toNat_lt
    show (x.toUInt64.toNat : Int) = x.toInt % UInt64.size
    rw [hword, BitVec.toInt_eq_toNat_cond, Int64.toNat_toBitVec]
    simp only [UInt64.size]
    split <;> omega
  | unsigned x =>
    cases h
    have hlt := x.toNat_lt
    show (x.toNat : Int) = x.toNat % UInt64.size
    simp only [UInt64.size]
    omega
  | float | bool | str => cases h

theorem bounds_of_integer? (h : c.integer? = some n) :
    -9223372036854775808 ≤ n ∧ n < UInt64.size := by
  cases c with
  | signed x =>
    cases h
    have hlow := x.le_toInt
    have hhigh := x.toInt_lt
    simp only [UInt64.size]
    omega
  | unsigned x =>
    cases h
    have hhigh := x.toNat_lt
    simp only [UInt64.size]
    omega
  | float | bool | str => cases h

theorem natAbs_of_integer? (h : c.integer? = some n) : n.natAbs < Nat.pow 2 64 := by
  obtain ⟨hlow, hhigh⟩ := bounds_of_integer? h
  rw [show Nat.pow 2 64 = UInt64.size from rfl]
  simp only [UInt64.size] at hhigh ⊢
  omega

/-- An integer that is not negative is its unsigned word. -/
theorem toNat_toUInt64_of_nonneg {k : Nat} (h : c.integer? = some (k : Int)) :
    c.toUInt64.toNat = k := by
  have hword := toNat_toUInt64 h
  have hhigh := (bounds_of_integer? h).2
  rw [Int.emod_eq_of_lt (Int.natCast_nonneg k) hhigh] at hword
  exact Int.ofNat_inj.1 hword

/-- Both words of an integer have the same bits. -/
theorem toInt64_toUInt64 (h : c.integer?.isSome) : c.toUInt64.toInt64 = c.toInt64 := by
  cases c with
  | signed | unsigned => rfl
  | float | bool | str => cases h

/-- The form of an integer kind is read off the unsigned word. -/
theorem cast_eq {kind : NumberKind} (h : c.integer?.isSome) (hk : kind.isInteger) :
    c.cast kind = if kind.isSigned then .signed c.toUInt64.toInt64 else .unsigned c.toUInt64 := by
  rw [cast, NumberKind.isFloat_of_isInteger hk, if_neg Bool.false_ne_true, toInt64_toUInt64 h]

theorem integer?_cast_eq {kind : NumberKind} (h : c.integer? = some n) (hk : kind.isInteger) :
    (c.cast kind).integer? = some (kind.wrap n) := by
  rw [cast, NumberKind.isFloat_of_isInteger hk, if_neg Bool.false_ne_true, NumberKind.wrap]
  split
  · exact congrArg some (toInt_toInt64 h)
  · exact congrArg some (toNat_toUInt64 h)

/-! ## 2. Remainders -/

/-- The kind of the words in which integers are folded with the constant on the left. -/
def wordKind : Constant → NumberKind
  | .unsigned _ => .u64
  | _ => .i64

theorem isZero_eq_false (h : c.integer? = some n) (hn : n ≠ 0) : c.isZero = false := by
  cases c with
  | signed | unsigned =>
    cases h
    rw [isZero, beq_eq_false_iff_ne]
    rintro rfl
    exact hn rfl
  | float | bool | str => cases h

/-- A remainder has the sign of the left operand. The right one is wrapped into the words of
the left. -/
theorem integer?_remainder (ha : a.integer? = some m) (hb : b.integer? = some n) (hn : n ≠ 0) :
    ∃ c, a.remainder b = .ok c ∧ c.integer? = some (m.tmod (a.wordKind.wrap n)) := by
  obtain ⟨c, hc⟩ := remainder_of_integers (Option.isSome_of_eq_some ha)
    (Option.isSome_of_eq_some hb) (isZero_eq_false hb hn)
  refine ⟨c, hc, ?_⟩
  cases a with
  | signed x =>
    cases ha
    simp only [remainder] at hc
    split at hc
    · cases hc
    · cases hc
      rw [integer?, toInt64, Int64.toInt_mod, toInt_toInt64 hb]
      rfl
  | unsigned x =>
    cases ha
    simp only [remainder] at hc
    split at hc
    · cases hc
    · cases hc
      rw [integer?, UInt64.toNat_mod, Int.natCast_emod, toNat_toUInt64 hb,
        Int.tmod_eq_emod_of_nonneg (Int.natCast_nonneg _)]
      rfl
  | float | bool | str => cases ha

/-! ## 3. Shifts to the right -/

/-- Past the last bit only the sign is left. -/
theorem ediv_two_pow_of_le {k : Nat} (hk : 64 ≤ k) (hlow : -9223372036854775808 ≤ n)
    (hhigh : n < UInt64.size) : n / (Nat.pow 2 k : Nat) = if n < 0 then -1 else 0 := by
  have hpow : Nat.pow 2 64 ≤ Nat.pow 2 k := Nat.pow_le_pow_right Nat.two_pos hk
  have hle : (UInt64.size : Int) ≤ (Nat.pow 2 k : Nat) := Int.ofNat_le.2 hpow
  simp only [UInt64.size] at hhigh hle
  split
  · rename_i hn
    exact Int.ediv_eq_neg_one_of_neg_of_le hn (by omega)
  · exact Int.ediv_eq_zero_of_lt (by omega) (by omega)

/-- What a power of two leaves of an integer. -/
theorem ediv_two_pow_bounds (k : Nat) (hlow : -9223372036854775808 ≤ n) (hhigh : n < UInt64.size) :
    -9223372036854775808 ≤ n / (Nat.pow 2 k : Nat) ∧ n / (Nat.pow 2 k : Nat) < UInt64.size ∧
      (0 ≤ n / (Nat.pow 2 k : Nat) ↔ 0 ≤ n) ∧
      (k ≠ 0 → n / (Nat.pow 2 k : Nat) < 9223372036854775808) := by
  have hpos : 0 < Nat.pow 2 k := Nat.two_pow_pos k
  have htwo : k ≠ 0 → Nat.pow 2 1 ≤ Nat.pow 2 k := fun hk =>
    Nat.pow_le_pow_right Nat.two_pos (Nat.one_le_iff_ne_zero.2 hk)
  generalize Nat.pow 2 k = d at hpos htwo
  have hd : (0 : Int) < d := Int.ofNat_lt.2 hpos
  simp only [UInt64.size] at hhigh ⊢
  refine ⟨?_, ?_, Int.ediv_nonneg_iff_of_pos hd, fun hk => ?_⟩
  · exact (Int.le_ediv_iff_mul_le hd).2 (by omega)
  · exact Int.ediv_lt_of_lt_mul hd (by omega)
  · have htwo : 2 ≤ d := htwo hk
    exact Int.ediv_lt_of_lt_mul hd (by omega)

/-- Signed words are shifted by the amount modulo the width, as a signed number. -/
theorem toNat_smod {amount : UInt64} (hlt : amount.toNat < 64) :
    (amount.toBitVec.smod 64).toNat = amount.toNat := by
  have hbits : amount.toBitVec.toNat < 64 := hlt
  have hmsb : amount.toBitVec.msb = false := BitVec.msb_eq_false_iff_two_mul_lt.2 (by omega)
  rw [BitVec.smod_eq, hmsb]
  simp only [show (64 : BitVec 64).msb = false from rfl]
  exact Nat.mod_eq_of_lt hlt

theorem toInt_shiftRight (x : Int64) {amount : UInt64} (h : amount < 64) :
    (x >>> amount.toInt64).toInt = x.toInt / (Nat.pow 2 amount.toNat : Nat) := by
  have hmod := toNat_smod (UInt64.lt_iff_toNat_lt.1 h)
  show (x >>> amount.toInt64).toBitVec.toInt = _
  rw [Int64.toBitVec_shiftRight, UInt64.toBitVec_toInt64, BitVec.sshiftRight_eq', hmod,
    BitVec.toInt_sshiftRight, Int.shiftRight_eq_div_pow]
  rfl

/-- A shift to the right divides by a power of two and rounds down. -/
theorem integer?_shiftRight (ha : a.integer? = some m) (amount : UInt64) :
    (a.shift .right amount).integer? = some (m.fdiv (Nat.pow 2 amount.toNat : Nat)) := by
  rw [Int.fdiv_eq_ediv_of_nonneg _ (Int.natCast_nonneg _)]
  obtain ⟨hlow, hhigh⟩ := bounds_of_integer? ha
  cases a with
  | signed x =>
    cases ha
    simp only [shift, toInt64]
    split <;> rename_i hamount
    · rw [ediv_two_pow_of_le (UInt64.le_iff_toNat_le.1 hamount) hlow hhigh]
      show some (if x < 0 then (-1 : Int64) else 0).toInt = some (if x.toInt < 0 then -1 else 0)
      have hsign : x < 0 ↔ x.toInt < 0 := Int64.lt_iff_toInt_lt
      by_cases hx : x < 0
      · rw [if_pos hx, if_pos (hsign.1 hx)]
        rfl
      · rw [if_neg hx, if_neg fun h => hx (hsign.2 h)]
        rfl
    · rw [integer?, toInt_shiftRight x (by simpa using hamount)]
  | unsigned x =>
    cases ha
    simp only [shift]
    split <;> rename_i hamount
    · rw [ediv_two_pow_of_le (UInt64.le_iff_toNat_le.1 hamount) hlow hhigh, if_neg (by omega)]
      rfl
    · have hlt : amount.toNat < 64 := UInt64.lt_iff_toNat_lt.1 (by simpa using hamount)
      rw [integer?, UInt64.toNat_shiftRight, Nat.mod_eq_of_lt hlt, Nat.shiftRight_eq_div_pow]
      rfl
  | float | bool | str => cases ha

end Constant

/-! ## 4. Bits -/

/-- The bits of two words joined one by one. -/
def Bitwise.join : Bitwise → UInt64 → UInt64 → UInt64
  | .and, m, n => m &&& n
  | .or, m, n => m ||| n
  | .xor, m, n => m ^^^ n

theorem Bitwise.join_comm (op : Bitwise) (m n : UInt64) : op.join m n = op.join n m := by
  cases op with
  | and => exact UInt64.and_comm m n
  | or => exact UInt64.or_comm m n
  | xor => exact UInt64.xor_comm m n

namespace Constant

variable {a b : Constant}

theorem integer?_bitwise (op : Bitwise) (a b : Constant) : (a.bitwise op b).integer?.isSome := by
  cases a <;> cases op <;> rfl

/-- Integers are joined by the bits of their words, in whatever form they are held. -/
theorem toUInt64_bitwise (ha : a.integer?.isSome) (hb : b.integer?.isSome) (op : Bitwise) :
    (a.bitwise op b).toUInt64 = op.join a.toUInt64 b.toUInt64 := by
  cases a with
  | unsigned m => cases op <;> rfl
  | signed m =>
    have hword : b.toInt64.toUInt64 = b.toUInt64 := by
      rw [← toInt64_toUInt64 hb, UInt64.toUInt64_toInt64]
    rw [← hword]
    cases op <;> rfl
  | float | bool | str => cases ha

theorem cast_bitwise_comm {kind : NumberKind} (ha : a.integer?.isSome) (hb : b.integer?.isSome)
    (hk : kind.isInteger) (op : Bitwise) :
    (b.bitwise op a).cast kind = (a.bitwise op b).cast kind := by
  rw [cast_eq (integer?_bitwise op b a) hk, cast_eq (integer?_bitwise op a b) hk,
    toUInt64_bitwise hb ha, toUInt64_bitwise ha hb, op.join_comm]

end Constant

/-! ## 5. Whole numbers -/

theorem Constant.toFloat_of_integer? {c : Constant} {n : Int} (h : c.integer? = some n) :
    c.toFloat = .ofInt n := by
  cases c with
  | signed | unsigned =>
    cases h
    rfl
  | float | bool | str => cases h

/-- The constant is the whole number, in whatever form. -/
def Constant.IsWhole (c : Constant) (n : Int) : Prop :=
  c.integer? = some n ∨ ∃ x, c = .float x ∧ x.IsWhole n

/-! ## 6. Sums, products and comparisons -/

namespace Binary64

theorem add_comm (x y : Binary64) : x + y = y + x := by
  show x.add y = y.add x
  cases x with
  | finite s m hm =>
    cases y with
    | finite t n hn => simp only [add, Int.add_comm, Bool.and_assoc, Bool.and_comm s t]
    | infinite | nan => rfl
  | infinite s =>
    cases y with
    | infinite t =>
      simp only [add, eq_comm (a := t)]
      split
      · rename_i h
        rw [h]
      · rfl
    | finite | nan => rfl
  | nan => cases y <;> rfl

theorem mul_comm (x y : Binary64) : x * y = y * x := by
  show x.mul y = y.mul x
  cases x with
  | finite s m hm =>
    cases y with
    | finite t n hn => simp only [mul, Nat.mul_comm, bne_comm]
    | infinite t => simp only [mul, bne_comm]
    | nan => rfl
  | infinite s =>
    cases y with
    | infinite t | finite t => simp only [mul, bne_comm]
    | nan => rfl
  | nan => cases y <;> rfl

/-- The other way round numbers lie to each other the other way round. -/
theorem compare?_swap (x y : Binary64) : y.compare? x = (x.compare? y).map Ordering.swap := by
  unfold compare?
  cases x.place? <;> cases y.place? <;> simp [Int.compare_swap]

end Binary64

namespace Constant

theorem arithmetic_comm {op : Arithmetic} (hop : op = .add ∨ op = .mul) (a b : Constant) :
    b.arithmetic op a = a.arithmetic op b := by
  rcases hop with rfl | rfl
  · exact Binary64.add_comm _ _
  · exact Binary64.mul_comm _ _

theorem compare?_swap (a b : Constant) : b.compare? a = (a.compare? b).map Ordering.swap := by
  have ordered {α : Type} [Ord α] [Std.OrientedOrd α] (x y : α) :
      some (compare y x) = (some (compare x y)).map Ordering.swap :=
    congrArg some Std.OrientedCmp.eq_swap
  cases a with
  | bool a =>
    cases b with
    | bool b => exact ordered a b
    | _ => rfl
  | str a =>
    cases b with
    | str b => exact ordered a b
    | _ => rfl
  | signed a =>
    cases b with
    | signed b => exact ordered a.toInt b.toInt
    | unsigned b => exact ordered a.toInt (b.toNat : Int)
    | float b =>
      rw [compare?, compare?]
      exact Binary64.compare?_swap _ _
    | _ => rfl
  | unsigned a =>
    cases b with
    | signed b => exact ordered (a.toNat : Int) b.toInt
    | unsigned b => exact ordered a.toNat b.toNat
    | float b =>
      rw [compare?, compare?]
      exact Binary64.compare?_swap _ _
    | _ => rfl
  | float a =>
    cases b with
    | signed b | unsigned b | float b =>
      rw [compare?, compare?]
      exact Binary64.compare?_swap _ _
    | _ => rfl

/-- Constants are equal, or are not, in either order. -/
theorem compareBy?_comm {op : Comparison} (hop : op = .eq ∨ op = .ne) (a b : Constant) :
    b.compareBy? op a = a.compareBy? op b := by
  have hadmits (o : Ordering) : op.admits o.swap = op.admits o := by
    rcases hop with rfl | rfl <;> cases o <;> rfl
  rw [compareBy?, compare?_swap, Option.map_map, compareBy?]
  congr 1
  funext o
  exact hadmits o

end Constant

end ExprCheck
