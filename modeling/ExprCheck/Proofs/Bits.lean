/-
ExprCheck.Proofs.Bits — bits of known integers.

Words are joined and shifted in the form of the left operand and then cast to that of the
result, and each step wraps. On bits this does not matter: the word of an integer, signed or
unsigned, has the low 64 bits of the whole number in two's complement (`toBitVec_toUInt64`), so
what is done to words is done to whole numbers, and the integer that comes out is congruent to
the whole number whose bits its word has (`integer?_cast_emod`). What is left is one lemma an
operation, on bits: `toBitVec_join` and `toBitVec_shiftLeft`.
-/
import ExprCheck.Proofs.Integers
import Mathlib.Data.Int.Bitwise

namespace ExprCheck

open Check

/-! ## 1. Bits of whole numbers -/

namespace Bitwise

/-- What the operator makes of two bits. -/
def apply : Bitwise → Bool → Bool → Bool
  | .and, a, b => a && b
  | .or, a, b => a || b
  | .xor, a, b => a ^^ b

/-- The bits of two whole numbers joined one by one, in two's complement: those of a negative number
go on with ones. -/
def onInts : Bitwise → Int → Int → Int
  | .and => Int.land
  | .or => Int.lor
  | .xor => Int.xor

variable (op : Bitwise)

theorem testBit_onInts (m n : Int) (i : Nat) :
    (op.onInts m n).testBit i = op.apply (m.testBit i) (n.testBit i) := by
  cases op with
  | and => exact Int.testBit_land m n i
  | or => exact Int.testBit_lor m n i
  | xor => exact Int.testBit_lxor m n i

theorem getLsbD_join (x y : UInt64) (i : Nat) :
    (op.join x y).toBitVec.getLsbD i = op.apply (x.toBitVec.getLsbD i) (y.toBitVec.getLsbD i) := by
  cases op with
  | and => exact BitVec.getLsbD_and
  | or => exact BitVec.getLsbD_or
  | xor => exact BitVec.getLsbD_xor

end Bitwise

theorem getLsbD_ofInt (n : Int) {i : Nat} (hi : i < 64) :
    (BitVec.ofInt 64 n).getLsbD i = n.testBit i := by
  cases n with
  | ofNat k =>
    show (BitVec.ofInt 64 (k : Int)).getLsbD i = k.testBit i
    rw [BitVec.ofInt_natCast, BitVec.getLsbD_ofNat, decide_eq_true hi, Bool.true_and]
  | negSucc k =>
    show (BitVec.ofInt 64 (Int.negSucc k)).getLsbD i = !k.testBit i
    rw [BitVec.ofInt_negSucc_eq_not_ofNat, BitVec.getLsbD_not, BitVec.getLsbD_ofNat,
      decide_eq_true hi, Bool.true_and, Bool.true_and]

/-- Words join the bits of the whole numbers that they stand for. -/
theorem Bitwise.toBitVec_join (op : Bitwise) {x y : UInt64} {m n : Int}
    (hx : x.toBitVec = BitVec.ofInt 64 m) (hy : y.toBitVec = BitVec.ofInt 64 n) :
    (op.join x y).toBitVec = BitVec.ofInt 64 (op.onInts m n) := by
  refine BitVec.eq_of_getLsbD_eq fun i hi => ?_
  rw [getLsbD_join, hx, hy, getLsbD_ofInt _ hi, getLsbD_ofInt _ hi, getLsbD_ofInt _ hi,
    testBit_onInts]

/-! ## 2. Words -/

/-- Wrapped numbers are congruent. -/
theorem NumberKind.wrap_emod (kind : NumberKind) (n : Int) :
    kind.wrap n % UInt64.size = n % UInt64.size := by
  unfold wrap
  split
  · exact Int.bmod_emod
  · exact Int.emod_emod_of_dvd n (Int.dvd_refl _)

namespace Constant

variable {a b c : Constant} {m n r : Int}

theorem toBitVec_toUInt64 (h : c.integer? = some n) : c.toUInt64.toBitVec = BitVec.ofInt 64 n := by
  refine BitVec.eq_of_toNat_eq (Int.ofNat_inj.1 ?_)
  have hword := toNat_toUInt64 h
  rw [BitVec.toNat_ofInt, Int.toNat_of_nonneg (Int.emod_nonneg n (by decide))]
  exact hword

/-- An integer is congruent to what its word is made of. -/
theorem emod_of_toBitVec (hc : c.integer? = some r) (h : c.toUInt64.toBitVec = BitVec.ofInt 64 n) :
    r % UInt64.size = n % UInt64.size := by
  have hword := toNat_toUInt64 hc
  have hbits := congrArg BitVec.toNat h
  rw [BitVec.toNat_ofInt] at hbits
  rw [← hword]
  show ((c.toUInt64.toBitVec.toNat : Nat) : Int) = _
  rw [hbits, Int.toNat_of_nonneg (Int.emod_nonneg n (by decide))]

/-- Words are moved to the left as the whole numbers are multiplied by a power of two. -/
theorem toBitVec_shiftLeft (ha : a.integer? = some m) {amount : UInt64}
    (hlt : amount.toNat < 64) :
    (a.shift .left amount).toUInt64.toBitVec =
      BitVec.ofInt 64 (m * (Nat.pow 2 amount.toNat : Nat)) := by
  have hpower : BitVec.ofInt 64 (Nat.pow 2 amount.toNat : Nat) = BitVec.twoPow 64 amount.toNat := by
    refine BitVec.eq_of_toNat_eq ?_
    rw [BitVec.ofInt_natCast, BitVec.toNat_ofNat, BitVec.toNat_twoPow]
    rfl
  have hamount : ¬64 ≤ amount := fun h =>
    Nat.not_le_of_lt hlt (UInt64.le_iff_toNat_le.1 h)
  have hmoved : (a.shift .left amount).toUInt64.toBitVec =
      a.toUInt64.toBitVec <<< amount.toNat := by
    cases a with
    | signed x =>
      simp only [shift, if_neg hamount, toInt64]
      show (x <<< amount.toInt64).toUInt64.toBitVec = x.toUInt64.toBitVec <<< amount.toNat
      rw [Int64.toBitVec_toUInt64, Int64.toBitVec_shiftLeft, UInt64.toBitVec_toInt64,
        BitVec.shiftLeft_eq', toNat_smod hlt, Int64.toBitVec_toUInt64]
    | unsigned x =>
      simp only [shift, if_neg hamount]
      show (x <<< amount).toBitVec = x.toBitVec <<< amount.toNat
      rw [UInt64.toBitVec_shiftLeft, BitVec.shiftLeft_eq', BitVec.toNat_umod]
      exact congrArg _ (Nat.mod_eq_of_lt hlt)
    | float | bool | str => cases ha
  rw [hmoved, toBitVec_toUInt64 ha, BitVec.shiftLeft_eq_mul_twoPow, BitVec.ofInt_mul, hpower]

/-- A cast to an integer kind yields an integer that is congruent to what the word is made of. -/
theorem integer?_cast_emod {kind : NumberKind} (hc : c.integer?.isSome) (hk : kind.isInteger)
    (h : c.toUInt64.toBitVec = BitVec.ofInt 64 n) :
    ∃ r, (c.cast kind).integer? = some r ∧ r % UInt64.size = n % UInt64.size := by
  obtain ⟨k, hk'⟩ := Option.isSome_iff_exists.1 hc
  refine ⟨_, integer?_cast_eq hk' hk, ?_⟩
  rw [kind.wrap_emod, emod_of_toBitVec hk' h]

theorem integer?_shiftLeft (ha : a.integer?.isSome) (amount : UInt64) :
    (a.shift .left amount).integer?.isSome := by
  cases a with
  | signed x | unsigned x =>
    simp only [shift]
    split <;> rfl
  | float | bool | str => cases ha

end Constant

/-! ## 3. Operations -/

section Operations

variable {settings : Settings} {left right : Value} {token : Token}
  {leftKind rightKind : NumberKind} {a b : Constant} {m n : Int}

/-- The bits of two known integers are joined in the form of the wider kind. -/
theorem resolve_bitwise (hfold : settings.foldConstants) {op : Bitwise}
    (htoken : Operator.ofKind? token.kind = some (.bitwise op))
    (hl : left.Known leftKind a m) (hr : right.Known rightKind b n) :
    ∃ v r, Silent (resolve settings left token right) v ∧
      v.Narrowed (leftKind.promoted rightKind) r ∧
      r % UInt64.size = op.onInts m n % UInt64.size := by
  have hbits : (a.bitwise op b).toUInt64.toBitVec = BitVec.ofInt 64 (op.onInts m n) := by
    rw [Constant.toUInt64_bitwise (Option.isSome_of_eq_some hl.integer)
      (Option.isSome_of_eq_some hr.integer)]
    exact op.toBitVec_join (Constant.toBitVec_toUInt64 hl.integer)
      (Constant.toBitVec_toUInt64 hr.integer)
  obtain ⟨r, hinteger, hr'⟩ := Constant.integer?_cast_emod (Constant.integer?_bitwise op a b)
    (NumberKind.promoted_isInteger hl.isInteger hr.isInteger) hbits
  obtain ⟨v, hv, hnarrowed⟩ := resolve_narrowed hfold htoken (fun _ => by simp) hl hr
    (Operation.bitwise_runs _ rfl hl hr) hinteger
  exact ⟨v, r, hv, hnarrowed, hr'⟩

/-- A known integer is moved to the left, by an amount of less than a word, in the form of the
amount's kind. -/
theorem resolve_shiftLeft (hfold : settings.foldConstants)
    (htoken : Operator.ofKind? token.kind = some (.shift .left))
    (hl : left.Known leftKind a m) (hr : right.Known rightKind b n) (hn : 0 ≤ n) (hlt : n < 64) :
    ∃ v c r, Silent (resolve settings left token right) v ∧ v.const = some c ∧
      c.integer? = some r ∧
      r % UInt64.size = m * (Nat.pow 2 n.toNat : Nat) % UInt64.size := by
  let o : Operation := ⟨left, .shift .left, token, right⟩
  have hrun := o.shift_runs rfl hl hr hn
  have hamount : b.toUInt64.toNat = n.toNat := by
    refine Constant.toNat_toUInt64_of_nonneg ?_
    rw [Int.toNat_of_nonneg hn]
    exact hr.integer
  have hsmall : b.toUInt64.toNat < 64 := by omega
  have ha := Option.isSome_of_eq_some hl.integer
  obtain ⟨r, hcast, hr'⟩ := Constant.integer?_cast_emod
    (Constant.integer?_shiftLeft ha b.toUInt64) (NumberKind.ofShift_isInteger hsmall)
    (Constant.toBitVec_shiftLeft hl.integer hsmall)
  rw [hamount] at hr'
  exact ⟨_, _, r, resolve_runs htoken (fun _ => by simp) hrun, o.const_finish hfold _, hcast, hr'⟩

end Operations

/-- Bits of known integers are joined and moved to the left as those of the whole numbers, in
two's complement without an end, as far as 64 bits show them. -/
theorem resolve_bits (settings : Settings) (hfold : settings.foldConstants) {left right : Value}
    {leftKind rightKind : NumberKind} {a b : Constant} {m n : Int}
    (hl : left.Known leftKind a m) (hr : right.Known rightKind b n) :
    (∀ op token, Operator.ofKind? token.kind = some (.bitwise op) →
      ∃ v r, Silent (resolve settings left token right) v ∧
        v.Narrowed (leftKind.promoted rightKind) r ∧
        r % UInt64.size = op.onInts m n % UInt64.size) ∧
    (0 ≤ n → n < 64 → ∀ token, Operator.ofKind? token.kind = some (.shift .left) →
      ∃ v c r, Silent (resolve settings left token right) v ∧ v.const = some c ∧
        c.integer? = some r ∧
        r % UInt64.size = m * (Nat.pow 2 n.toNat : Nat) % UInt64.size) :=
  ⟨fun _ _ htoken => resolve_bitwise hfold htoken hl hr,
    fun hn hlt _ htoken => resolve_shiftLeft hfold htoken hl hr hn hlt⟩

/-- A negative number and one of an unsigned kind. -/
theorem resolve_bits_negative :
    let left : Value := .ofConstant (Ty.number .i8) (.signed (-6))
    let right : Value := .ofConstant (Ty.number .u64) (.unsigned 3)
    let caret := Token.synthetic .caret "^"
    let shift := Token.synthetic .shiftLeft "<<"
    left.Known .i8 (.signed (-6)) (-6) ∧ right.Known .u64 (.unsigned 3) 3 ∧
      (∃ v r, Silent (resolve .default left caret right) v ∧ v.Narrowed .u64 r ∧
        r % UInt64.size = -7 % UInt64.size) ∧
      ∃ v c r, Silent (resolve .default left shift right) v ∧ v.const = some c ∧
        c.integer? = some r ∧ r % UInt64.size = -48 % UInt64.size := by
  intro left right caret shift
  have hl : left.Known .i8 (.signed (-6)) (-6) := ⟨rfl, rfl, rfl, rfl⟩
  have hr : right.Known .u64 (.unsigned 3) 3 := ⟨rfl, rfl, rfl, rfl⟩
  obtain ⟨hbitwise, hshift⟩ := resolve_bits .default rfl hl hr
  exact ⟨hl, hr, hbitwise .xor caret rfl, hshift (by decide) (by decide) shift rfl⟩

end ExprCheck
