/-
ExprCheck.Proofs.Arithmetic — sums, differences, products and quotients of known integers.

The operands are rounded to floats, the outcome is rounded once more, and a cast takes it to the
integer form, without its fraction and into the range of the form.

* Overflow (`resolve_overflow`): the one test is whether the rounded outcome is negative, under an
  unsigned kind. Rounding does not change the sign of an outcome but may take it to zero, and by
  `isNegative_arithmetic` it does so only where the operands cancel: for a sum or a difference of
  operands that are rounded to one float, up to sign. A quotient is not tested at all. All other
  overflow is cut off by the cast in silence (`overflow_unreported`).
* Small operands (`resolve_small`): up to 2 ^ 53 nothing is rounded but the quotient, whose whole
  part is kept.
-/
import ExprCheck.Proofs.Floats
import ExprCheck.Proofs.Integers

namespace ExprCheck

open Check

/-! ## 1. Whole numbers -/

namespace Arithmetic

/-- The operation on whole numbers. -/
def onInts : Arithmetic → Int → Int → Int
  | .add, m, n => m + n
  | .sub, m, n => m - n
  | .mul, m, n => m * n

/-- Rounded to floats, the operands add up to zero, or have no difference. -/
def Cancels : Arithmetic → Int → Int → Prop
  | .add, m, n => Binary64.ofInt m = Binary64.ofInt (-n)
  | .sub, m, n => Binary64.ofInt m = Binary64.ofInt n
  | .mul, _, _ => False

variable {m n : Int}

/-- Whole numbers that need no rounding cancel only if their sum or difference is zero. -/
theorem not_cancels (op : Arithmetic) (hm : m.natAbs ≤ Nat.pow 2 53)
    (hn : n.natAbs ≤ Nat.pow 2 53) (h : op.onInts m n ≠ 0) : ¬op.Cancels m n := by
  cases op with
  | add =>
    intro hcancel
    have := Binary64.ofInt_inj hm (by rwa [Int.natAbs_neg]) hcancel
    exact h (show m + n = 0 by omega)
  | sub =>
    intro hcancel
    have := Binary64.ofInt_inj hm hn hcancel
    exact h (show m - n = 0 by omega)
  | mul => exact id

end Arithmetic

namespace Binary64

variable {m n p q : Int}

/-- Signed like whole numbers, places have a product that is signed like theirs. -/
theorem mul_neg_iff (hzero : p = 0 ↔ m = 0) (hneg : p < 0 ↔ m < 0) (hzero' : q = 0 ↔ n = 0)
    (hneg' : q < 0 ↔ n < 0) : p * q < 0 ↔ m * n < 0 := by
  rw [Int.mul_neg_iff, Int.mul_neg_iff, hneg, hneg', show 0 < p ↔ 0 < m by omega,
    show 0 < q ↔ 0 < n by omega]

end Binary64

namespace Constant

variable {a b : Constant} {m n : Int}

/-- An integer is rounded to a finite float. -/
theorem exists_liesAt (ha : a.integer? = some m) :
    ∃ p, a.toFloat.LiesAt p ∧ (Binary64.ofInt m).place? = some p := by
  obtain ⟨p, hp⟩ := Binary64.exists_place?_ofInt m
  rw [toFloat_of_integer? ha]
  exact ⟨p, ⟨Binary64.isFinite_ofInt m (natAbs_of_integer? ha), hp⟩, hp⟩

/-- As floats, operands of 64 bits have a negative sum, difference or product exactly if it is
negative as a whole number, unless they cancel. -/
theorem isNegative_arithmetic (ha : a.integer? = some m) (hb : b.integer? = some n)
    (op : Arithmetic) :
    (a.arithmetic op b).isNegative ↔ op.onInts m n < 0 ∧ ¬op.Cancels m n := by
  have hm := natAbs_of_integer? ha
  have hn := natAbs_of_integer? hb
  obtain ⟨p, hx, hp⟩ := exists_liesAt ha
  obtain ⟨q, hy, hq⟩ := exists_liesAt hb
  cases op with
  | add =>
    have hn' : (-n).natAbs < Nat.pow 2 64 := by rwa [Int.natAbs_neg]
    have hlt := Binary64.place?_ofInt_lt_iff hm hn' hp (Binary64.place?_ofInt_neg hq)
    refine (Binary64.sign_add hx hy).2.trans ?_
    rw [show p + q < 0 ↔ p < -q by omega, hlt, show m < -n ↔ m + n < 0 by omega]
    exact Iff.rfl
  | sub =>
    have hlt := Binary64.place?_ofInt_lt_iff hm hn hp hq
    refine (Binary64.sign_sub hx hy).2.trans ?_
    rw [show p - q < 0 ↔ p < q by omega, hlt, show m < n ↔ m - n < 0 by omega]
    exact Iff.rfl
  | mul =>
    obtain ⟨hzero, hneg⟩ := Binary64.sign_place?_ofInt hp
    obtain ⟨hzero', hneg'⟩ := Binary64.sign_place?_ofInt hq
    refine (Binary64.sign_mul hx hy (Binary64.le_natAbs_of_place?_ofInt hp)).2.trans ?_
    rw [Binary64.mul_neg_iff hzero hneg hzero' hneg']
    exact (and_iff_left not_false).symm

/-- A number whose whole part the kind has room for is cast to its whole part. -/
theorem integer?_cast_float {kind : NumberKind} {x : Binary64} (hk : kind.isInteger)
    (hx : x.TruncatesTo n) (hroom : kind.widest.Holds n) :
    ((Constant.float x).cast kind).integer? = some n := by
  rw [NumberKind.widest_eq hk] at hroom
  rw [cast, NumberKind.isFloat_of_isInteger hk, if_neg Bool.false_ne_true]
  split <;> rename_i hs
  · rw [if_pos hs] at hroom
    have hlow : -9223372036854775808 ≤ n := hroom.1
    have hhigh : n ≤ 9223372036854775807 := hroom.2
    have hclamp : max Int64.minValue.toInt (min Int64.maxValue.toInt n) = n := by
      show max (-9223372036854775808) (min 9223372036854775807 n) = n
      omega
    rw [integer?, toInt64, Binary64.toInt64, hx, hclamp,
      Int64.toInt_ofInt_of_le hlow (Int.lt_add_one_of_le hhigh)]
  · rw [if_neg hs] at hroom
    have hlow : 0 ≤ n := hroom.1
    have hhigh : n ≤ 18446744073709551615 := hroom.2
    have hclamp : max 0 (min (((Nat.pow 2 64 : Nat) : Int) - 1) n) = n := by
      show max 0 (min 18446744073709551615 n) = n
      omega
    have hword : (UInt64.ofNat n.toNat).toNat = n.toNat := by
      rw [UInt64.toNat_ofNat']
      exact Nat.mod_eq_of_lt (by omega)
    rw [integer?, toUInt64, Binary64.toUInt64, hx, hclamp, hword, Int.toNat_of_nonneg hlow]

/-- Operands that need no rounding are added, subtracted and multiplied exactly, as far as the
outcome needs none. -/
theorem isWhole_arithmetic (ha : a.integer? = some m) (hb : b.integer? = some n)
    (hm : m.natAbs ≤ Nat.pow 2 53) (hn : n.natAbs ≤ Nat.pow 2 53) {op : Arithmetic}
    (h : (op.onInts m n).natAbs ≤ Nat.pow 2 53) :
    (a.arithmetic op b).IsWhole (op.onInts m n) := by
  have hx : a.toFloat.IsWhole m := by
    rw [toFloat_of_integer? ha]
    exact Binary64.isWhole_ofInt m hm
  have hy : b.toFloat.IsWhole n := by
    rw [toFloat_of_integer? hb]
    exact Binary64.isWhole_ofInt n hn
  cases op with
  | add => exact hx.add hy h
  | sub => exact hx.sub hy h
  | mul => exact hx.mul hy h

theorem truncatesTo_quotient (ha : a.integer? = some m) (hb : b.integer? = some n)
    (hm : m.natAbs ≤ Nat.pow 2 53) (hn : n.natAbs ≤ Nat.pow 2 53) (hzero : n ≠ 0) :
    (a.quotient b).TruncatesTo (m.tdiv n) := by
  rw [quotient, toFloat_of_integer? ha, toFloat_of_integer? hb]
  exact (Binary64.isWhole_ofInt m hm).truncatesTo_div (Binary64.isWhole_ofInt n hn) hm hn hzero

end Constant

/-- Integers that need no rounding have room in every family that has their sign. -/
theorem NumberKind.widest_holds {kind : NumberKind} (hk : kind.isInteger) {n : Int}
    (h : n.natAbs ≤ Nat.pow 2 53) (hn : kind.isUnsigned → 0 ≤ n) : kind.widest.Holds n := by
  have hsmall : n.natAbs ≤ 9007199254740992 := h
  have hsigned : NumberKind.i64.Holds n := by
    show -9223372036854775808 ≤ n ∧ n ≤ 9223372036854775807
    omega
  have hunsigned : 0 ≤ n → NumberKind.u64.Holds n := by
    intro hpos
    show 0 ≤ n ∧ n ≤ 18446744073709551615
    omega
  cases kind with
  | i8 | i16 | i32 | i64 => exact hsigned
  | u8 | u16 | u32 | u64 => exact hunsigned (hn rfl)
  | f32 | f64 => cases hk

/-! ## 2. Overflow -/

section Overflow

variable (settings : Settings) (token : Token) {left right : Value}
  {leftKind rightKind : NumberKind} {a b : Constant} {m n : Int}

/-- A sum, difference or product of known integers is reported if the kind is unsigned and the
exact number negative, unless the operands cancel as floats. -/
theorem resolve_arithmetic {op : Arithmetic}
    (htoken : Operator.ofKind? token.kind = some (.arithmetic op))
    (hl : left.Known leftKind a m) (hr : right.Known rightKind b n) :
    ∃ v, (((leftKind.promoted rightKind).isUnsigned ∧ op.onInts m n < 0 ∧ ¬op.Cancels m n) →
        Runs (resolve settings left token right) v [⟨.overflow, token.position⟩]) ∧
      (¬((leftKind.promoted rightKind).isUnsigned ∧ op.onInts m n < 0 ∧ ¬op.Cancels m n) →
        Silent (resolve settings left token right) v) := by
  let o : Operation := ⟨left, .arithmetic op, token, right⟩
  obtain ⟨v, hrun⟩ : ∃ v, Runs (resolve settings left token right) v
      (if (leftKind.promoted rightKind).isUnsigned && (a.arithmetic op b).isNegative then
        [⟨.overflow, token.position⟩] else []) :=
    ⟨_, resolve_runs htoken (fun _ => by simp) (o.arithmetic_runs rfl hl hr)⟩
  rw [← Constant.isNegative_arithmetic hl.integer hr.integer op, ← Bool.and_eq_true_iff]
  refine ⟨v, fun h => ?_, fun h => ?_⟩
  · rwa [if_pos h] at hrun
  · rwa [if_neg h] at hrun

/-- A quotient by a divisor that is not zero is not reported. -/
theorem resolve_quotient (htoken : Operator.ofKind? token.kind = some .divide)
    (hl : left.Known leftKind a m) (hr : right.Known rightKind b n) (hn : n ≠ 0) :
    ∃ v, Silent (resolve settings left token right) v := by
  let o : Operation := ⟨left, .divide, token, right⟩
  exact ⟨_, resolve_runs htoken (fun _ => by simp) (o.quotient_runs rfl hl hr hn)⟩

end Overflow

/-- A sum, difference or product of known integers is reported exactly if the kind is unsigned and
the exact number negative, unless the operands cancel once they are rounded, which operands that
need no rounding do not. No other overflow is reported, and no quotient by a divisor that is not
zero is. -/
theorem resolve_overflow (settings : Settings) {left right : Value}
    {leftKind rightKind : NumberKind} {a b : Constant} {m n : Int}
    (hl : left.Known leftKind a m) (hr : right.Known rightKind b n) :
    (∀ op token, Operator.ofKind? token.kind = some (.arithmetic op) →
      ∃ v, (((leftKind.promoted rightKind).isUnsigned ∧ op.onInts m n < 0 ∧ ¬op.Cancels m n) →
          Runs (resolve settings left token right) v [⟨.overflow, token.position⟩]) ∧
        (¬((leftKind.promoted rightKind).isUnsigned ∧ op.onInts m n < 0 ∧ ¬op.Cancels m n) →
          Silent (resolve settings left token right) v)) ∧
    (m.natAbs ≤ Nat.pow 2 53 → n.natAbs ≤ Nat.pow 2 53 →
      ∀ op : Arithmetic, op.onInts m n < 0 → ¬op.Cancels m n) ∧
    (n ≠ 0 → ∀ token, Operator.ofKind? token.kind = some .divide →
      ∃ v, Silent (resolve settings left token right) v) :=
  ⟨fun _ token htoken => resolve_arithmetic settings token htoken hl hr,
    fun hm hn op hneg => op.not_cancels hm hn (Int.ne_of_lt hneg),
    fun hn token htoken => resolve_quotient settings token htoken hl hr hn⟩

/-- A difference below zero, of an unsigned kind. -/
theorem resolve_overflow_below_zero :
    let left : Value := .ofConstant (Ty.number .u8) (.unsigned 1)
    let right : Value := .ofConstant (Ty.number .u8) (.unsigned 2)
    let dash := Token.synthetic .dash "-"
    left.Known .u8 (.unsigned 1) 1 ∧ right.Known .u8 (.unsigned 2) 2 ∧
      ∃ v, Runs (resolve .default left dash right) v [⟨.overflow, dash.position⟩] := by
  intro left right dash
  have hl : left.Known .u8 (.unsigned 1) 1 := ⟨rfl, rfl, rfl, rfl⟩
  have hr : right.Known .u8 (.unsigned 2) 2 := ⟨rfl, rfl, rfl, rfl⟩
  obtain ⟨hreported, hsmall, -⟩ := resolve_overflow .default hl hr
  obtain ⟨v, hrun, -⟩ := hreported .sub dash rfl
  exact ⟨hl, hr, v, hrun ⟨rfl, by decide, hsmall (by decide) (by decide) .sub (by decide)⟩⟩

/-- Overflow without a report: past the top, of a signed and of an unsigned kind; below zero, where
the operands cancel as floats; and below zero in a quotient. -/
theorem overflow_unreported :
    let signed (n : Int64) : Value := .ofConstant (Ty.number .i64) (.signed n)
    let unsigned (n : UInt64) : Value := .ofConstant (Ty.number .u64) (.unsigned n)
    let plus := Token.synthetic .plus "+"
    let star := Token.synthetic .star "*"
    let slash := Token.synthetic .slash "/"
    (¬NumberKind.i64.Holds (9223372036854775807 + 1) ∧
      ∃ v, Silent (resolve .default (signed 9223372036854775807) plus (signed 1)) v) ∧
    (¬NumberKind.u64.Holds (18446744073709551615 * 2) ∧
      ∃ v, Silent (resolve .default (unsigned 18446744073709551615) star (unsigned 2)) v) ∧
    (¬NumberKind.u64.Holds (-9007199254740993 + 9007199254740992) ∧
      ∃ v, Silent
        (resolve .default (signed (-9007199254740993)) plus (unsigned 9007199254740992)) v) ∧
    (¬NumberKind.u64.Holds ((-4 : Int).tdiv 2) ∧
      ∃ v, Silent (resolve .default (signed (-4)) slash (unsigned 2)) v) := by
  intro signed unsigned plus star slash
  have hsigned (n : Int64) : (signed n).Known .i64 (.signed n) n.toInt := ⟨rfl, rfl, rfl, rfl⟩
  have hunsigned (n : UInt64) : (unsigned n).Known .u64 (.unsigned n) n.toNat :=
    ⟨rfl, rfl, rfl, rfl⟩
  refine ⟨⟨by decide, ?_⟩, ⟨by decide, ?_⟩, ⟨by decide, ?_⟩, by decide, ?_⟩
  · obtain ⟨v, -, hsilent⟩ := resolve_arithmetic .default plus rfl
      (hsigned 9223372036854775807) (hsigned 1)
    exact ⟨v, hsilent fun h => Bool.false_ne_true h.1⟩
  · obtain ⟨v, -, hsilent⟩ := resolve_arithmetic .default star rfl
      (hunsigned 18446744073709551615) (hunsigned 2)
    exact ⟨v, hsilent fun h => absurd h.2.1 (by decide)⟩
  · obtain ⟨v, -, hsilent⟩ := resolve_arithmetic .default plus rfl
      (hsigned (-9007199254740993)) (hunsigned 9007199254740992)
    refine ⟨v, hsilent fun h => h.2.2 ?_⟩
    show Binary64.ofInt (-9007199254740993) = Binary64.ofInt (-9007199254740992)
    decide +kernel
  · exact resolve_quotient .default slash rfl (hsigned (-4)) (hunsigned 2) (by decide)

/-! ## 3. Small operands -/

section Small

variable (settings : Settings) (token : Token) {left right : Value}
  {leftKind rightKind : NumberKind} {a b : Constant} {m n : Int}

/-- A sum, difference or product that needs no rounding is folded exactly. -/
theorem resolve_arithmetic_small (hfold : settings.foldConstants) {op : Arithmetic}
    (htoken : Operator.ofKind? token.kind = some (.arithmetic op))
    (hl : left.Known leftKind a m) (hr : right.Known rightKind b n)
    (hm : m.natAbs ≤ Nat.pow 2 53) (hn : n.natAbs ≤ Nat.pow 2 53)
    (hsmall : (op.onInts m n).natAbs ≤ Nat.pow 2 53)
    (hsign : (leftKind.promoted rightKind).isUnsigned → 0 ≤ op.onInts m n) :
    ∃ v, Silent (resolve settings left token right) v ∧
      v.Narrowed (leftKind.promoted rightKind) (op.onInts m n) := by
  have hpromoted := NumberKind.promoted_isInteger hl.isInteger hr.isInteger
  have hrun := Operation.arithmetic_runs ⟨left, .arithmetic op, token, right⟩ rfl hl hr
  have hquiet : ¬((leftKind.promoted rightKind).isUnsigned && (a.arithmetic op b).isNegative) := by
    rw [Bool.and_eq_true_iff, Constant.isNegative_arithmetic hl.integer hr.integer op]
    rintro ⟨hunsigned, hneg, -⟩
    exact Int.not_le.2 hneg (hsign hunsigned)
  rw [if_neg hquiet] at hrun
  have hwhole := Constant.isWhole_arithmetic hl.integer hr.integer hm hn hsmall
  have hinteger := Constant.integer?_cast_float hpromoted hwhole.truncatesTo
    (NumberKind.widest_holds hpromoted hsmall hsign)
  exact resolve_narrowed hfold htoken (fun _ => by simp) hl hr hrun hinteger

/-- A quotient of operands that need no rounding is folded to the truncated quotient. -/
theorem resolve_quotient_small (hfold : settings.foldConstants)
    (htoken : Operator.ofKind? token.kind = some .divide)
    (hl : left.Known leftKind a m) (hr : right.Known rightKind b n)
    (hm : m.natAbs ≤ Nat.pow 2 53) (hn : n.natAbs ≤ Nat.pow 2 53) (hzero : n ≠ 0)
    (hsign : (leftKind.promoted rightKind).isUnsigned → 0 ≤ m.tdiv n) :
    ∃ v, Silent (resolve settings left token right) v ∧
      v.Narrowed (leftKind.promoted rightKind) (m.tdiv n) := by
  have hpromoted := NumberKind.promoted_isInteger hl.isInteger hr.isInteger
  have hsmall : (m.tdiv n).natAbs ≤ Nat.pow 2 53 := by
    rw [Int.natAbs_tdiv]
    exact Nat.le_trans (Nat.div_le_self _ _) hm
  have htruncates := Constant.truncatesTo_quotient hl.integer hr.integer hm hn hzero
  have hinteger := Constant.integer?_cast_float hpromoted htruncates
    (NumberKind.widest_holds hpromoted hsmall hsign)
  exact resolve_narrowed hfold htoken (fun _ => by simp) hl hr
    (Operation.quotient_runs _ rfl hl hr hzero) hinteger

end Small

/-- Known integers of no more bits than a float has significant ones are added, subtracted,
multiplied and divided exactly, without a report, where the exact number needs no more bits and has
a sign that the kind has. The quotient is truncated. -/
theorem resolve_small (settings : Settings) (hfold : settings.foldConstants) {left right : Value}
    {leftKind rightKind : NumberKind} {a b : Constant} {m n : Int}
    (hl : left.Known leftKind a m) (hr : right.Known rightKind b n)
    (hm : m.natAbs ≤ Nat.pow 2 53) (hn : n.natAbs ≤ Nat.pow 2 53) :
    (∀ op token, Operator.ofKind? token.kind = some (.arithmetic op) →
      (op.onInts m n).natAbs ≤ Nat.pow 2 53 →
      ((leftKind.promoted rightKind).isUnsigned → 0 ≤ op.onInts m n) →
      ∃ v, Silent (resolve settings left token right) v ∧
        v.Narrowed (leftKind.promoted rightKind) (op.onInts m n)) ∧
    (n ≠ 0 → ∀ token, Operator.ofKind? token.kind = some .divide →
      ((leftKind.promoted rightKind).isUnsigned → 0 ≤ m.tdiv n) →
      ∃ v, Silent (resolve settings left token right) v ∧
        v.Narrowed (leftKind.promoted rightKind) (m.tdiv n)) :=
  ⟨fun _ token htoken hsmall hsign =>
      resolve_arithmetic_small settings token hfold htoken hl hr hm hn hsmall hsign,
    fun hzero token htoken hsign =>
      resolve_quotient_small settings token hfold htoken hl hr hm hn hzero hsign⟩

/-- A negative number and one of another width. -/
theorem resolve_small_negative :
    let left : Value := .ofConstant (Ty.number .i8) (.signed (-7))
    let right : Value := .ofConstant (Ty.number .i16) (.signed 200)
    let star := Token.synthetic .star "*"
    let slash := Token.synthetic .slash "/"
    left.Known .i8 (.signed (-7)) (-7) ∧ right.Known .i16 (.signed 200) 200 ∧
      (∃ v, Silent (resolve .default left star right) v ∧ v.Narrowed .i16 (-1400)) ∧
      ∃ v, Silent (resolve .default right slash left) v ∧ v.Narrowed .i16 (-28) := by
  intro left right star slash
  have hl : left.Known .i8 (.signed (-7)) (-7) := ⟨rfl, rfl, rfl, rfl⟩
  have hr : right.Known .i16 (.signed 200) 200 := ⟨rfl, rfl, rfl, rfl⟩
  obtain ⟨harithmetic, -⟩ := resolve_small .default rfl hl hr (by decide) (by decide)
  obtain ⟨-, hquotient⟩ := resolve_small .default rfl hr hl (by decide) (by decide)
  have hsigned : ¬NumberKind.i16.isUnsigned := Bool.false_ne_true
  exact ⟨hl, hr, harithmetic .mul star rfl (by decide) fun h => absurd h hsigned,
    hquotient (by decide) slash rfl fun h => absurd h hsigned⟩

end ExprCheck
