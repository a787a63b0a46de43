/-
ExprCheck.Proofs.Integers — operations on known integers.

Two operands of integer types whose constants are integers (`Value.Known`) are decided about
as integers, and an operation on them is one fold of their constants, cast to the form of a
kind: of the wider operand's, or of the one that the amount of a shift selects. There is one
lemma an operation for the run (`arithmetic_runs`, `quotient_runs` and so on), and
`resolve_narrowed` says what value comes of it: the integer in the form of the wider kind's
family, under the narrowest type of that family (`Value.Narrowed`). What the fold and the cast
make of the whole numbers is said in `ExprCheck.Proofs.Folding`, and here the two are put
together for two operations:

* a remainder is the one of truncated division, of a divisor that is wrapped into the words
  of the left operand (`resolve_remainder`);
* a shift to the right divides by a power of two and rounds down, and what comes out is
  wrapped into the words of the amount's kind (`resolve_shiftRight`).
-/
import ExprCheck.Proofs.Folding

namespace ExprCheck

open Check

/-! ## 1. Known integers -/

/-- The value is known to be the whole number `n`, under a type of the integer kind and with
the constant. -/
structure Value.Known (v : Value) (kind : NumberKind) (c : Constant) (n : Int) : Prop where
  numberKind : v.type.numberKind? = some kind
  isInteger : kind.isInteger
  const : v.const = some c
  integer : c.integer? = some n

theorem Value.Known.known? {v : Value} {kind : NumberKind} {c : Constant} {n : Int}
    (h : v.Known kind c n) : v.known? = some c := by
  rw [Value.known?, Ty.isPure_of_numberKind h.numberKind, if_pos rfl, h.const]

/-- Of the kinds of a family that have the number, the kind is the narrowest. -/
structure NumberKind.Narrowest (family kind : NumberKind) (n : Int) : Prop where
  widest : kind.widest = family.widest
  holds : kind.Holds n
  bits_le : ∀ other : NumberKind, other.widest = family.widest → other.Holds n →
    kind.bits ≤ other.bits

/-- The constant has the form that values of the kind are held in. -/
def Constant.HeldAs (kind : NumberKind) : Constant → Prop
  | .signed _ => kind.isSigned
  | .unsigned _ => kind.isUnsigned
  | .float _ => kind.isFloat
  | .bool _ | .str _ => False

/-- The value is known to be the whole number, in the form of the family and under the narrowest
type of it. -/
def Value.Narrowed (v : Value) (family : NumberKind) (n : Int) : Prop :=
  ∃ c kind, v.const = some c ∧ c.integer? = some n ∧ c.HeldAs family ∧
    v.type = Ty.number kind ∧ family.Narrowest kind n

namespace Constant

theorem heldAs_cast (kind : NumberKind) (c : Constant) : (c.cast kind).HeldAs kind := by
  cases kind <;> rfl

theorem narrowest_signedOfBits {family : NumberKind} (h : family.isSigned) (x : Int64) :
    family.Narrowest (.signedOfBits (bitsOfSigned x)) x.toInt := by
  have hfamily : family.widest = .i64 := by cases family <;> first | rfl | cases h
  refine ⟨?_, signedOfBits_holds x, fun other hother hholds => ?_⟩
  · rw [hfamily]
    unfold bitsOfSigned
    repeat' split
    all_goals rfl
  · rw [hfamily] at hother
    unfold bitsOfSigned
    cases other <;> cases hother
    all_goals
      repeat' split
      all_goals decide

theorem narrowest_unsignedOfBits {family : NumberKind} (h : family.isUnsigned) (x : UInt64) :
    family.Narrowest (.unsignedOfBits (bitsOfUnsigned x)) x.toNat := by
  have hfamily : family.widest = .u64 := by cases family <;> first | rfl | cases h
  refine ⟨?_, unsignedOfBits_holds x, fun other hother hholds => ?_⟩
  · rw [hfamily]
    unfold bitsOfUnsigned
    repeat' split
    all_goals rfl
  · rw [hfamily] at hother
    unfold bitsOfUnsigned
    cases other <;> cases hother
    all_goals
      repeat' split
      all_goals decide

/-- The type that an integer is narrowed to is the narrowest that has it. -/
theorem narrowest_narrowestKind {family : NumberKind} {c : Constant} {n : Int}
    (hheld : c.HeldAs family) (hn : c.integer? = some n) :
    ∃ kind, c.narrowestKind? = some kind ∧ family.Narrowest kind n := by
  cases c with
  | signed x =>
    cases hn
    exact ⟨_, rfl, narrowest_signedOfBits hheld x⟩
  | unsigned x =>
    cases hn
    exact ⟨_, rfl, narrowest_unsignedOfBits hheld x⟩
  | float | bool | str => cases hn

end Constant

namespace OperandSort

variable {l r : Ty} {left right : NumberKind}

/-- A number is of the sort of its family. -/
theorem number_of_admits (h : l.numberKind? = some left) {sort : OperandSort}
    (hs : sort.admits l) :
    sort = if left.isFloat then .float else if left.isSigned then .signed else .unsigned := by
  have hsort := eq_of_admits (Ty.bareCategory?_of_numberKind h) hs
  rw [Category.operandSort?, Option.some.injEq] at hsort
  exact hsort.symm

/-- Numbers decide as numbers. -/
theorem of?_of_numbers (hl : l.numberKind? = some left) (hr : r.numberKind? = some right) :
    ∃ sort, of? l r = some sort ∧ (sort = .float ∨ sort = .unsigned ∨ sort = .signed) := by
  cases h : of? l r with
  | none =>
    -- the left operand alone is of one of the sorts
    have off (sort : OperandSort) (hs : sort ∈ all) : sort.admits l = false := by
      have hnone := List.find?_eq_none.1 h sort hs
      rw [Bool.not_eq_true, Bool.or_eq_false_iff] at hnone
      exact hnone.1
    have hfloat := off .float (by decide)
    have hunsigned := off .unsigned (by decide)
    have hsigned := off .signed (by decide)
    rw [admits, Ty.isFloat, hl, Option.any_some] at hfloat
    rw [admits, Ty.isUnsigned, hl, Option.any_some] at hunsigned
    rw [admits, Ty.isSigned, hl, Option.any_some] at hsigned
    cases left with
    | i8 | i16 | i32 | i64 => cases hsigned
    | u8 | u16 | u32 | u64 => cases hunsigned
    | f32 | f64 => cases hfloat
  | some sort =>
    refine ⟨sort, rfl, ?_⟩
    rcases Bool.or_eq_true_iff.1 (Operation.admits_of_of? h) with hs | hs
    · rw [number_of_admits hl hs]
      cases left.isFloat <;> cases left.isSigned <;> simp
    · rw [number_of_admits hr hs]
      cases right.isFloat <;> cases right.isSigned <;> simp

/-- Integers decide as integers. -/
theorem of?_of_integers (hl : l.numberKind? = some left) (hr : r.numberKind? = some right)
    (hli : left.isInteger) (hri : right.isInteger) :
    ∃ sort, of? l r = some sort ∧ (sort = .unsigned ∨ sort = .signed) := by
  obtain ⟨sort, h, hsort⟩ := of?_of_numbers hl hr
  refine ⟨sort, h, hsort.resolve_left ?_⟩
  rintro rfl
  rcases Bool.or_eq_true_iff.1 (Operation.admits_of_of? h) with hs | hs
  · rw [admits, Ty.isFloat, hl, Option.any_some, NumberKind.isFloat_of_isInteger hli] at hs
    cases hs
  · rw [admits, Ty.isFloat, hr, Option.any_some, NumberKind.isFloat_of_isInteger hri] at hs
    cases hs

end OperandSort

/-! ## 2. Runs -/

namespace Operation

variable (o : Operation) {left right : NumberKind} {a b : Constant} {m n : Int}

/-- Numbers are taken as numbers. -/
theorem outcome_of_sort {sort : OperandSort}
    (h : OperandSort.of? o.left.type o.right.type = some sort)
    (hsort : sort = .float ∨ sort = .unsigned ∨ sort = .signed) :
    o.outcome = o.onNumbers sort := by
  rw [outcome, h]
  rcases hsort with rfl | rfl | rfl <;> rfl

/-- Known integers are taken as two numbers, and not as floats. -/
theorem outcome_of_integers (hl : o.left.Known left a m) (hr : o.right.Known right b n) :
    ∃ sort, o.outcome = o.onNumbers sort ∧ (sort != .float) = true := by
  obtain ⟨sort, h, hsort⟩ :=
    OperandSort.of?_of_integers hl.numberKind hr.numberKind hl.isInteger hr.isInteger
  exact ⟨sort, o.outcome_of_sort h (.inr hsort), by rcases hsort with rfl | rfl <;> rfl⟩

theorem known?_of_integers (hl : o.left.Known left a m) (hr : o.right.Known right b n) :
    o.known? = some (a, b) := by
  rw [Operation.known?, hl.known?, hr.known?]

/-- A sum, difference or product. It is reported if it is negative and the kind is not. -/
theorem arithmetic_runs {op : Arithmetic} (hop : o.op = .arithmetic op)
    (hl : o.left.Known left a m) (hr : o.right.Known right b n) :
    Runs o.outcome
      (some (.typed (o.wider left right).2
        (some ((Constant.float (a.arithmetic op b)).cast (left.promoted right)))))
      (if (left.promoted right).isUnsigned && (a.arithmetic op b).isNegative then
        [⟨.overflow, o.token.position⟩] else []) := by
  obtain ⟨sort, houtcome, -⟩ := o.outcome_of_integers hl hr
  rw [houtcome, onNumbers, hl.numberKind, hr.numberKind]
  dsimp only
  rw [hop]
  dsimp only
  rw [o.known?_of_integers hl hr, wider_fst, Option.map_some, Option.any_some, Option.map_some]
  split
  · exact (runs_report .overflow o.token.position).bind (runs_pure _)
  · exact runs_pure _

/-- A quotient or remainder by a divisor that is not zero, in the form of the wider kind. -/
theorem divided_runs (hl : o.left.Known left a m) (hr : o.right.Known right b n) (hn : n ≠ 0)
    {kind : NumberKind} {type : Ty} {fold : Constant → Constant → Except Fault Constant}
    {c : Constant} (hc : fold a b = .ok c) :
    Silent (o.divided kind type fold) (.typed type (some (c.cast kind))) := by
  have hzero : (o.right.known?.any Constant.isZero) = false := by
    rw [hr.known?]
    exact Constant.isZero_eq_false hr.integer hn
  rw [divided, hzero, if_neg Bool.false_ne_true, o.known?_of_integers hl hr]
  dsimp only
  rw [hc]
  exact runs_pure _

/-- A quotient by a divisor that is not zero. -/
theorem quotient_runs (hop : o.op = .divide) (hl : o.left.Known left a m)
    (hr : o.right.Known right b n) (hn : n ≠ 0) :
    Silent o.outcome
      (some (.typed (o.wider left right).2
        (some ((Constant.float (a.quotient b)).cast (left.promoted right))))) := by
  obtain ⟨sort, houtcome, -⟩ := o.outcome_of_integers hl hr
  rw [houtcome, onNumbers, hl.numberKind, hr.numberKind]
  dsimp only
  rw [hop, ← wider_fst]
  exact (o.divided_runs hl hr hn rfl).bind_silent (runs_pure _)

/-- A remainder by a divisor that is not zero. -/
theorem remainder_runs (hop : o.op = .remainder) (hl : o.left.Known left a m)
    (hr : o.right.Known right b n) (hn : n ≠ 0) {c : Constant} (hc : a.remainder b = .ok c) :
    Silent o.outcome
      (some (.typed (o.wider left right).2 (some (c.cast (left.promoted right))))) := by
  obtain ⟨sort, houtcome, hintegers⟩ := o.outcome_of_integers hl hr
  rw [houtcome, onNumbers, hl.numberKind, hr.numberKind]
  dsimp only
  rw [hop]
  dsimp only
  rw [if_pos hintegers, ← wider_fst]
  exact (o.divided_runs hl hr hn hc).bind_silent (runs_pure _)

/-- Joined bits. -/
theorem bitwise_runs {op : Bitwise} (hop : o.op = .bitwise op) (hl : o.left.Known left a m)
    (hr : o.right.Known right b n) :
    Silent o.outcome
      (some (.typed (o.wider left right).2
        (some ((a.bitwise op b).cast (left.promoted right))))) := by
  obtain ⟨sort, houtcome, hintegers⟩ := o.outcome_of_integers hl hr
  rw [houtcome, onNumbers, hl.numberKind, hr.numberKind]
  dsimp only
  rw [hop]
  dsimp only
  rw [if_pos hintegers, o.known?_of_integers hl hr, wider_fst]
  exact runs_pure _

/-- A shift by an amount that is not negative. -/
theorem shift_runs {op : Shift} (hop : o.op = .shift op) (hl : o.left.Known left a m)
    (hr : o.right.Known right b n) (hn : 0 ≤ n) :
    Silent o.outcome
      (some (.fixed (Ty.number (.ofShift b.toUInt64))
        (some ((a.shift op b.toUInt64).cast (.ofShift b.toUInt64))))) := by
  obtain ⟨sort, houtcome, hintegers⟩ := o.outcome_of_integers hl hr
  have hamount : shiftsBy o.right = true := by
    rw [shiftsBy, Ty.isInteger_of_numberKind hr.numberKind, hr.isInteger, hr.const, Bool.true_and]
    have hinteger := hr.integer
    cases b with
    | signed x =>
      cases hinteger
      exact decide_eq_true (Int64.le_iff_toInt_le.2 hn)
    | unsigned => rfl
    | float | bool | str => cases hinteger
  rw [houtcome, onNumbers, hl.numberKind, hr.numberKind]
  dsimp only
  rw [hop]
  dsimp only
  rw [if_pos hintegers, shifted, if_pos hamount, hr.const, hl.known?]
  exact (runs_pure _).bind_silent (runs_pure _)

end Operation

/-- An outcome becomes a value without a further report. -/
theorem resolve_runs {settings : Settings} {left right : Value} {token : Token} {op : Operator}
    {outcome : Outcome} {new : List Diagnostic} (hop : Operator.ofKind? token.kind = some op)
    (hlogical : ∀ logical, op ≠ .logical logical)
    (h : Runs (Operation.outcome ⟨left, op, token, right⟩) (some outcome) new) :
    Runs (resolve settings left token right)
      (Operation.finish ⟨left, op, token, right⟩ settings outcome) new := by
  unfold resolve
  rw [hop]
  dsimp only
  split
  · rename_i logical
    exact absurd rfl (hlogical logical)
  · exact h.bind_silent (runs_pure _)

theorem Operation.const_finish (o : Operation) {settings : Settings}
    (hfold : settings.foldConstants) (outcome : Outcome) :
    (o.finish settings outcome).const = outcome.const := by
  rw [finish, if_pos hfold]

/-- A folded integer gets the narrowest type that has it. -/
theorem Operation.narrowed_finish (o : Operation) {settings : Settings}
    (hfold : settings.foldConstants) {type : Ty} {kind : NumberKind}
    (ht : type.numberKind? = some kind) {c : Constant} {n : Int}
    (hn : (c.cast kind).integer? = some n) :
    (o.finish settings (.typed type (some (c.cast kind)))).Narrowed kind n := by
  have hheld := Constant.heldAs_cast kind c
  obtain ⟨narrow, hnarrow, hnarrowest⟩ := Constant.narrowest_narrowestKind hheld hn
  refine ⟨_, narrow, o.const_finish hfold _, hn, hheld, ?_, hnarrowest⟩
  obtain ⟨narrow', hnarrow', htype⟩ := Outcome.finalType_typed ht c
  rw [hnarrow, Option.some.injEq] at hnarrow'
  subst hnarrow'
  rw [finish, if_pos hfold]
  exact htype

/-- An operation on known integers that is folded to an integer yields it in the form of the wider
kind and under the narrowest type. -/
theorem resolve_narrowed {settings : Settings} (hfold : settings.foldConstants)
    {left right : Value} {token : Token} {op : Operator} {leftKind rightKind : NumberKind}
    {a b c : Constant} {m n r : Int} (htoken : Operator.ofKind? token.kind = some op)
    (hlogical : ∀ logical, op ≠ .logical logical) (hl : left.Known leftKind a m)
    (hr : right.Known rightKind b n)
    (hrun : Silent (Operation.outcome ⟨left, op, token, right⟩)
      (some (.typed (Operation.wider ⟨left, op, token, right⟩ leftKind rightKind).2
        (some (c.cast (leftKind.promoted rightKind))))))
    (hinteger : (c.cast (leftKind.promoted rightKind)).integer? = some r) :
    ∃ v, Silent (resolve settings left token right) v ∧
      v.Narrowed (leftKind.promoted rightKind) r := by
  let o : Operation := ⟨left, op, token, right⟩
  have hkind := o.wider_numberKind hl.numberKind hr.numberKind
  rw [o.wider_fst] at hkind
  exact ⟨_, resolve_runs htoken hlogical hrun, o.narrowed_finish hfold hkind hinteger⟩

/-! ## 3. Remainders -/

theorem Constant.wrap_wordKind {c : Constant} {n : Int} (h : c.wordKind.Holds n) :
    c.wordKind.wrap n = n := by
  cases c <;> exact NumberKind.wrap_of_holds rfl h

/-- Without a report the remainder of two known integers is the one of truncated division. The
divisor is wrapped into the words of the left operand, and what comes out into those of the
wider kind; where both have room it is the remainder itself. -/
theorem resolve_remainder (settings : Settings) (hfold : settings.foldConstants)
    (token : Token) (htoken : token.kind = .percent) {left right : Value}
    {leftKind rightKind : NumberKind} {a b : Constant} {m n : Int}
    (hl : left.Known leftKind a m) (hr : right.Known rightKind b n) (hn : n ≠ 0) :
    ∃ v c, Silent (resolve settings left token right) v ∧ v.const = some c ∧
      c.integer? = some ((leftKind.promoted rightKind).wrap (m.tmod (a.wordKind.wrap n))) ∧
      (a.wordKind.Holds n → (leftKind.promoted rightKind).widest.Holds (m.tmod n) →
        c.integer? = some (m.tmod n)) := by
  have hpromoted := NumberKind.promoted_isInteger hl.isInteger hr.isInteger
  obtain ⟨r, hr', hvalue⟩ := Constant.integer?_remainder hl.integer hr.integer hn
  have hrun := Operation.remainder_runs ⟨left, .remainder, token, right⟩ rfl hl hr hn hr'
  have hcast := Constant.integer?_cast_eq hvalue hpromoted
  refine ⟨_, _, resolve_runs (by rw [htoken]; rfl) (fun _ => by simp) hrun,
    Operation.const_finish _ hfold _, hcast, fun hword hroom => ?_⟩
  rw [hcast, Constant.wrap_wordKind hword, NumberKind.wrap_of_holds hpromoted hroom]

/-- The remainder of a negative number, by an unsigned one. -/
theorem resolve_remainder_negative :
    let left : Value := .ofConstant (Ty.number .i64) (.signed (-7))
    let right : Value := .ofConstant (Ty.number .u8) (.unsigned 3)
    let percent := Token.synthetic .percent "%"
    left.Known .i64 (.signed (-7)) (-7) ∧ right.Known .u8 (.unsigned 3) 3 ∧
      ∃ v c, Silent (resolve .default left percent right) v ∧ v.const = some c ∧
        c.integer? = some (-1) := by
  intro left right percent
  have hl : left.Known .i64 (.signed (-7)) (-7) := ⟨rfl, rfl, rfl, rfl⟩
  have hr : right.Known .u8 (.unsigned 3) 3 := ⟨rfl, rfl, rfl, rfl⟩
  obtain ⟨v, c, hrun, hconst, -, hexact⟩ :=
    resolve_remainder .default rfl percent rfl hl hr (by decide)
  exact ⟨hl, hr, v, c, hrun, hconst, hexact (by decide) (by decide)⟩

/-- A divisor past the signed words is taken as another number with a signed integer on the
left, here as -1. -/
theorem remainder_of_wrapped :
    let left : Value := .ofConstant (Ty.number .i8) (.signed 7)
    let right : Value := .ofConstant (Ty.number .u64) (.unsigned 18446744073709551615)
    let percent := Token.synthetic .percent "%"
    left.Known .i8 (.signed 7) 7 ∧
      right.Known .u64 (.unsigned 18446744073709551615) 18446744073709551615 ∧
      (NumberKind.i8.promoted .u64).widest.Holds ((7 : Int).tmod 18446744073709551615) ∧
      ∃ v, Silent (resolve .default left percent right) v ∧ v.const = some (.unsigned 0) ∧
        (Constant.unsigned 0).integer? ≠ some ((7 : Int).tmod 18446744073709551615) := by
  intro left right percent
  have hl : left.Known .i8 (.signed 7) 7 := ⟨rfl, rfl, rfl, rfl⟩
  have hr : right.Known .u64 (.unsigned 18446744073709551615) 18446744073709551615 :=
    ⟨rfl, rfl, rfl, rfl⟩
  have hrun := Operation.remainder_runs ⟨left, .remainder, percent, right⟩ rfl hl hr (by decide)
    (c := .signed 0) rfl
  exact ⟨hl, hr, by decide, _, resolve_runs rfl (fun _ => by simp) hrun, rfl, by decide⟩

/-! ## 4. Shifts to the right -/

namespace NumberKind

/-- The amounts for which a single bit just fits the unsigned kind of a width. -/
def unsignedAmounts : List Nat := [7, 15, 31, 63]

theorem mem_unsignedAmounts {n : Nat} :
    n ∈ unsignedAmounts ↔ n = 7 ∨ n = 15 ∨ n = 31 ∨ n = 63 := by
  simp [unsignedAmounts]

theorem ofShift_isFloat_iff (amount : UInt64) :
    (ofShift amount).isFloat ↔ 64 ≤ amount.toNat := by
  unfold ofShift
  simp only [UInt64.lt_iff_toNat_lt, UInt64.reduceToNat]
  repeat' split
  all_goals constructor <;> intro h <;> first | rfl | omega | cases h

theorem ofShift_isInteger {amount : UInt64} (h : amount.toNat < 64) :
    (ofShift amount).isInteger := by
  rw [isInteger, Bool.not_eq_true', ← Bool.not_eq_true, ofShift_isFloat_iff]
  omega

theorem ofShift_isSigned_iff {amount : UInt64} (hlt : amount.toNat < 64) :
    (ofShift amount).isSigned ↔ amount.toNat ∉ unsignedAmounts := by
  rw [mem_unsignedAmounts]
  unfold ofShift
  simp only [UInt64.lt_iff_toNat_lt, UInt64.reduceToNat]
  repeat' split
  all_goals constructor <;> intro h <;> first | rfl | omega | cases h

end NumberKind

namespace Constant

variable {a : Constant} {m : Int} {amount : UInt64}

/-- From 64 on a shift leaves no more than a sign, which is cast to a float. -/
theorem isWhole_shiftRight_float (ha : a.integer? = some m) (h : 64 ≤ amount.toNat) :
    ((a.shift .right amount).cast (.ofShift amount)).IsWhole
      (m.fdiv (Nat.pow 2 amount.toNat : Nat)) := by
  have hshift := integer?_shiftRight ha amount
  obtain ⟨hlow, hhigh⟩ := bounds_of_integer? ha
  have hsmall : (m.fdiv (Nat.pow 2 amount.toNat : Nat)).natAbs ≤ Nat.pow 2 53 := by
    rw [Int.fdiv_eq_ediv_of_nonneg _ (Int.natCast_nonneg _), ediv_two_pow_of_le h hlow hhigh]
    split <;> decide
  rw [cast, if_pos ((NumberKind.ofShift_isFloat_iff amount).2 h), toFloat_of_integer? hshift]
  exact .inr ⟨_, rfl, Binary64.isWhole_ofInt _ hsmall⟩

/-- Before that it is wrapped into the words of the amount's kind. -/
theorem isWhole_shiftRight (ha : a.integer? = some m) (h : amount.toNat < 64) :
    ((a.shift .right amount).cast (.ofShift amount)).IsWhole
      ((NumberKind.ofShift amount).wrap (m / (Nat.pow 2 amount.toNat : Nat))) := by
  have hshift := integer?_shiftRight ha amount
  rw [Int.fdiv_eq_ediv_of_nonneg _ (Int.natCast_nonneg _)] at hshift
  exact .inl (integer?_cast_eq hshift (NumberKind.ofShift_isInteger h))

end Constant

/-- Where the words of the amount's kind have room for a quotient, and where it is wrapped. -/
theorem NumberKind.wrap_ofShift {amount : UInt64} {m k : Int} (hlt : amount.toNat < 64)
    (hlow : -9223372036854775808 ≤ m) (hhigh : m < UInt64.size)
    (hk : m / (Nat.pow 2 amount.toNat : Nat) = k) :
    (¬(m < 0 ∧ amount.toNat ∈ unsignedAmounts) →
      ¬(amount.toNat = 0 ∧ Int64.maxValue.toInt < m) → (ofShift amount).wrap k = k) ∧
    (m < 0 ∧ amount.toNat ∈ unsignedAmounts → (ofShift amount).wrap k = k + UInt64.size) ∧
    (amount.toNat = 0 ∧ Int64.maxValue.toInt < m → (ofShift amount).wrap k = k - UInt64.size) := by
  have hzero : amount.toNat = 0 → k = m := by
    intro hn
    rw [← hk, hn]
    exact Int.ediv_one m
  obtain ⟨hklow, hkhigh, hsign, hhalf⟩ := Constant.ediv_two_pow_bounds amount.toNat hlow hhigh
  rw [hk] at hklow hkhigh hsign hhalf
  have hsigned := ofShift_isSigned_iff hlt
  have hmax : Int64.maxValue.toInt = 9223372036854775807 := rfl
  rw [mem_unsignedAmounts] at hsigned ⊢
  rw [hmax, wrap]
  simp only [Int.bmod, UInt64.size] at hhigh hkhigh ⊢
  split <;> rename_i hs
  · -- a signed kind has room for all but an integer past its words that is not shifted
    rw [hsigned] at hs
    refine ⟨fun _ hroom => ?_, fun h => absurd h.2 hs, fun h => ?_⟩ <;> omega
  · have hs := not_not.1 fun h => hs (hsigned.2 h)
    refine ⟨fun hroom _ => ?_, fun h => ?_, fun h => ?_⟩ <;> omega

/-- A shift of a known integer to the right divides it by a power of two and rounds down,
without a report. What comes out is off by 2 ^ 64 where the kind of the amount has no room for
it: where that is unsigned and the integer is negative, and where nothing is shifted and the
integer is past the signed words. -/
theorem resolve_shiftRight (settings : Settings) (hfold : settings.foldConstants)
    (token : Token) (htoken : token.kind = .shiftRight) {left right : Value}
    {leftKind rightKind : NumberKind} {a b : Constant} {m : Int} {n : Nat}
    (hl : left.Known leftKind a m) (hr : right.Known rightKind b n) :
    ∃ v c, Silent (resolve settings left token right) v ∧ v.const = some c ∧
      (¬(m < 0 ∧ n ∈ NumberKind.unsignedAmounts) → ¬(n = 0 ∧ Int64.maxValue.toInt < m) →
        c.IsWhole (m.fdiv (Nat.pow 2 n : Nat))) ∧
      (m < 0 ∧ n ∈ NumberKind.unsignedAmounts →
        c.IsWhole (m.fdiv (Nat.pow 2 n : Nat) + UInt64.size)) ∧
      (n = 0 ∧ Int64.maxValue.toInt < m → c.IsWhole (m - UInt64.size)) := by
  have hamount := Constant.toNat_toUInt64_of_nonneg hr.integer
  obtain ⟨hlow, hhigh⟩ := Constant.bounds_of_integer? hl.integer
  have hrun := Operation.shift_runs ⟨left, .shift .right, token, right⟩ rfl hl hr
    (Int.natCast_nonneg n)
  refine ⟨_, _, resolve_runs (by rw [htoken]; rfl) (fun _ => by simp) hrun,
    Operation.const_finish _ hfold _, ?_⟩
  generalize b.toUInt64 = amount at hamount
  subst hamount
  rcases Nat.lt_or_ge amount.toNat 64 with hlt | hge
  · have hwhole := Constant.isWhole_shiftRight hl.integer hlt
    obtain ⟨hroom, hnegative, hlarge⟩ := NumberKind.wrap_ofShift hlt hlow hhigh rfl
    rw [Int.fdiv_eq_ediv_of_nonneg m (Int.natCast_nonneg _)]
    refine ⟨fun h h' => ?_, fun h => ?_, fun h => ?_⟩
    · rwa [hroom h h'] at hwhole
    · rwa [hnegative h] at hwhole
    · rw [hlarge h, h.1] at hwhole
      rwa [show m / (Nat.pow 2 0 : Nat) = m from Int.ediv_one m] at hwhole
  · -- the value of so large an amount is a float
    have hwhole := Constant.isWhole_shiftRight_float hl.integer hge
    refine ⟨fun _ _ => hwhole, fun h => ?_, fun h => ?_⟩
    · have hmem := NumberKind.mem_unsignedAmounts.1 h.2
      omega
    · omega

/-- A negative number, rounded down. -/
theorem resolve_shiftRight_negative :
    let left : Value := .ofConstant (Ty.number .i16) (.signed (-300))
    let right : Value := .ofConstant (Ty.number .u8) (.unsigned 3)
    let shift := Token.synthetic .shiftRight ">>"
    left.Known .i16 (.signed (-300)) (-300) ∧ right.Known .u8 (.unsigned 3) (3 : Nat) ∧
      ∃ v c, Silent (resolve .default left shift right) v ∧ v.const = some c ∧
        c.IsWhole (-38) := by
  intro left right shift
  have hl : left.Known .i16 (.signed (-300)) (-300) := ⟨rfl, rfl, rfl, rfl⟩
  have hr : right.Known .u8 (.unsigned 3) (3 : Nat) := ⟨rfl, rfl, rfl, rfl⟩
  obtain ⟨v, c, hrun, hconst, hexact, -, -⟩ :=
    resolve_shiftRight .default rfl shift rfl hl hr
  exact ⟨hl, hr, v, c, hrun, hconst, hexact (by decide) (by decide)⟩

/-- The kind of the amount is unsigned, and has no negative number. -/
theorem shiftRight_of_negative :
    let left : Value := .ofConstant (Ty.number .i8) (.signed (-1))
    let right : Value := .ofConstant (Ty.number .i8) (.signed 7)
    let shift := Token.synthetic .shiftRight ">>"
    left.Known .i8 (.signed (-1)) (-1) ∧ right.Known .i8 (.signed 7) (7 : Nat) ∧
      ∃ v, Silent (resolve .default left shift right) v ∧
        v.const = some (.unsigned 18446744073709551615) ∧
        ¬(Constant.unsigned 18446744073709551615).IsWhole
          ((-1 : Int).fdiv (Nat.pow 2 7 : Nat)) := by
  intro left right shift
  have hl : left.Known .i8 (.signed (-1)) (-1) := ⟨rfl, rfl, rfl, rfl⟩
  have hr : right.Known .i8 (.signed 7) (7 : Nat) := ⟨rfl, rfl, rfl, rfl⟩
  have hrun := Operation.shift_runs ⟨left, .shift .right, shift, right⟩ rfl hl hr (by decide)
  refine ⟨hl, hr, _, resolve_runs rfl (fun _ => by simp) hrun, rfl, ?_⟩
  rintro (h | ⟨x, h, -⟩)
  · revert h
    decide
  · cases h

end ExprCheck
