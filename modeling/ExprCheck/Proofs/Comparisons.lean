/-
ExprCheck.Proofs.Comparisons — comparisons of known numbers.

All six comparisons ask about one thing, how two constants lie to each other, and that is an
ordering for any two numbers that are not NaN (`exists_compare?`). So exactly one of the three
definite answers is true, the opposites are opposite, and the operands may be swapped.

There are two orders behind it, though: integers lie to each other as they are, and with a float
among them both are taken as floats. Rounding keeps the order of integers but does not tell all of
them apart, so the first order is finer than the second, and a step of either is one of the second
(`place?_le_of_isLE`). Two steps then make one, unless the one is between integers that are in the
wrong order and the same float (`Merged`): with that float between them both steps hold and the
one does not (`isLE_trans`, `compare_not_transitive`).
-/
import ExprCheck.Proofs.Floats
import ExprCheck.Proofs.Integers

namespace ExprCheck

open Check

/-! ## 1. The order of constants -/

namespace Constant

variable {a b c : Constant} {m n p q : Int} {o o₁ o₂ : Ordering}

theorem compare_natCast (k l : Nat) : compare (k : Int) (l : Int) = compare k l := by
  simp only [compare, compareOfLessAndEq, Int.ofNat_lt, Int.natCast_inj]

/-- The constant is a number that can be compared. -/
def IsOrdered (c : Constant) : Prop := c.isNumeric ∧ c ≠ .float .nan

theorem IsOrdered.exists_place? (h : c.IsOrdered) : ∃ p, c.toFloat.place? = some p := by
  cases c with
  | signed x => exact Binary64.exists_place?_ofInt x.toInt
  | unsigned x => exact Binary64.exists_place?_ofInt x.toNat
  | float x =>
    cases x with
    | finite | infinite => exact ⟨_, rfl⟩
    | nan => exact absurd rfl h.2
  | bool | str => cases h.1

/-- What is ordered and no integer is a float. -/
theorem IsOrdered.exists_float (h : c.IsOrdered) (hc : c.integer? = none) : ∃ x, c = .float x := by
  cases c with
  | float x => exact ⟨x, rfl⟩
  | signed | unsigned => cases hc
  | bool | str => cases h.1

/-- Integers lie to each other as they are. -/
theorem compare?_of_integers (ha : a.integer? = some m) (hb : b.integer? = some n) :
    a.compare? b = some (compare m n) := by
  cases a with
  | signed x =>
    cases b with
    | signed | unsigned =>
      cases ha
      cases hb
      rfl
    | float | bool | str => cases hb
  | unsigned x =>
    cases b with
    | signed =>
      cases ha
      cases hb
      rfl
    | unsigned y =>
      cases ha
      cases hb
      exact congrArg some (compare_natCast x.toNat y.toNat).symm
    | float | bool | str => cases hb
  | float | bool | str => cases ha

/-- With a float among them numbers lie to each other as floats. -/
theorem compare?_of_float (ha : a.IsOrdered) (hb : b.IsOrdered)
    (h : a.integer? = none ∨ b.integer? = none) :
    a.compare? b = a.toFloat.compare? b.toFloat := by
  cases a with
  | signed | unsigned =>
    obtain ⟨y, rfl⟩ := hb.exists_float (h.resolve_left (Option.some_ne_none _))
    rw [compare?]
    rfl
  | float x =>
    cases b with
    | signed | unsigned | float =>
      rw [compare?]
      rfl
    | bool | str => cases hb.1
  | bool | str => cases ha.1

theorem IsOrdered.exists_compare? (ha : a.IsOrdered) (hb : b.IsOrdered) :
    ∃ o, a.compare? b = some o := by
  by_cases h : a.integer? = none ∨ b.integer? = none
  · obtain ⟨p, hp⟩ := ha.exists_place?
    obtain ⟨q, hq⟩ := hb.exists_place?
    rw [compare?_of_float ha hb h, Binary64.compare?, hp, hq]
    exact ⟨_, rfl⟩
  · obtain ⟨ha', hb'⟩ := not_or.1 h
    obtain ⟨m, hm⟩ := Option.ne_none_iff_exists'.1 ha'
    obtain ⟨n, hn⟩ := Option.ne_none_iff_exists'.1 hb'
    exact ⟨_, compare?_of_integers hm hn⟩

theorem isLE_iff_of_integers (ha : a.integer? = some m) (hb : b.integer? = some n)
    (h : a.compare? b = some o) : o.isLE ↔ m ≤ n := by
  rw [compare?_of_integers ha hb, Option.some.injEq] at h
  rw [← h, Int.isLE_compare]

theorem isLE_iff_of_float (ha : a.IsOrdered) (hb : b.IsOrdered)
    (hfloat : a.integer? = none ∨ b.integer? = none) (hp : a.toFloat.place? = some p)
    (hq : b.toFloat.place? = some q) (h : a.compare? b = some o) : o.isLE ↔ p ≤ q := by
  rw [compare?_of_float ha hb hfloat, Binary64.compare?, hp, hq, Option.some.injEq] at h
  rw [← h, Int.isLE_compare]

/-- Numbers in order are in order as floats. -/
theorem place?_le_of_isLE (ha : a.IsOrdered) (hb : b.IsOrdered) (hp : a.toFloat.place? = some p)
    (hq : b.toFloat.place? = some q) (h : a.compare? b = some o) (ho : o.isLE) : p ≤ q := by
  by_cases hfloat : a.integer? = none ∨ b.integer? = none
  · exact (isLE_iff_of_float ha hb hfloat hp hq h).1 ho
  · obtain ⟨ha', hb'⟩ := not_or.1 hfloat
    obtain ⟨m, hm⟩ := Option.ne_none_iff_exists'.1 ha'
    obtain ⟨n, hn⟩ := Option.ne_none_iff_exists'.1 hb'
    rw [toFloat_of_integer? hm] at hp
    rw [toFloat_of_integer? hn] at hq
    exact Binary64.place?_ofInt_mono ((isLE_iff_of_integers hm hn h).1 ho) hp hq

/-- Two integers that are one number as floats, the greater one before the float and the smaller
one behind it. -/
def Merged (a b c : Constant) : Prop :=
  ∃ m n x, a.integer? = some m ∧ c.integer? = some n ∧ n < m ∧
    Binary64.ofInt m = Binary64.ofInt n ∧ b = .float x

/-- The order goes on from two steps to one, unless the float between two integers does not tell
them apart. -/
theorem isLE_trans (ha : a.IsOrdered) (hb : b.IsOrdered) (hc : c.IsOrdered)
    (hab : a.compare? b = some o₁) (hbc : b.compare? c = some o₂) (hac : a.compare? c = some o)
    (h₁ : o₁.isLE) (h₂ : o₂.isLE) : o.isLE ↔ ¬Merged a b c := by
  obtain ⟨p, hp⟩ := ha.exists_place?
  obtain ⟨q, hq⟩ := hb.exists_place?
  obtain ⟨r, hr⟩ := hc.exists_place?
  have hpr : p ≤ r :=
    Int.le_trans (place?_le_of_isLE ha hb hp hq hab h₁) (place?_le_of_isLE hb hc hq hr hbc h₂)
  by_cases hfloat : a.integer? = none ∨ c.integer? = none
  · refine iff_of_true ((isLE_iff_of_float ha hc hfloat hp hr hac).2 hpr) ?_
    rintro ⟨m, n, x, hm, hn, -⟩
    rw [hm, hn] at hfloat
    exact hfloat.elim (Option.some_ne_none _) (Option.some_ne_none _)
  · obtain ⟨ha', hc'⟩ := not_or.1 hfloat
    obtain ⟨m, hm⟩ := Option.ne_none_iff_exists'.1 ha'
    obtain ⟨n, hn⟩ := Option.ne_none_iff_exists'.1 hc'
    rw [isLE_iff_of_integers hm hn hac]
    refine ⟨?_, fun hmerged => Int.not_lt.1 fun hnm => hmerged ?_⟩
    · rintro hmn ⟨m', n', x, hm', hn', hlt, -⟩
      rw [hm, Option.some.injEq] at hm'
      rw [hn, Option.some.injEq] at hn'
      omega
    · -- nothing but a float lies between two integers that are not in order
      cases hb' : b.integer? with
      | some k =>
        have hmk := (isLE_iff_of_integers hm hb' hab).1 h₁
        have hkn := (isLE_iff_of_integers hb' hn hbc).1 h₂
        omega
      | none =>
        obtain ⟨x, rfl⟩ := hb.exists_float hb'
        refine ⟨m, n, x, hm, hn, hnm, ?_, rfl⟩
        rw [toFloat_of_integer? hm] at hp
        rw [toFloat_of_integer? hn] at hr
        have hrp := Binary64.place?_ofInt_mono (Int.le_of_lt hnm) hr hp
        rw [Int.le_antisymm hrp hpr] at hr
        exact Binary64.ofInt_eq_of_place? (natAbs_of_integer? hm) (natAbs_of_integer? hn) hp hr

end Constant

/-! ## 2. Comparisons -/

namespace Comparison

/-- The comparison that asks for the opposite. -/
def negated : Comparison → Comparison
  | .eq => .ne
  | .ne => .eq
  | .lt => .ge
  | .ge => .lt
  | .gt => .le
  | .le => .gt

/-- The comparison that asks for the same of the operands the other way round. -/
def mirrored : Comparison → Comparison
  | .eq => .eq
  | .ne => .ne
  | .lt => .gt
  | .gt => .lt
  | .le => .ge
  | .ge => .le

/-- The comparison asks for one order. -/
def isDefinite : Comparison → Bool
  | .eq | .lt | .gt => true
  | .ne | .le | .ge => false

/-- The one order is what decides about the comparisons that ask for one. -/
theorem exists_admits_iff (o : Ordering) :
    ∃ one : Comparison, one.isDefinite ∧
      ∀ op : Comparison, op.isDefinite → op.admits o = decide (op = one) := by
  cases o with
  | lt => exact ⟨.lt, rfl, fun op hop => by cases op <;> first | rfl | cases hop⟩
  | eq => exact ⟨.eq, rfl, fun op hop => by cases op <;> first | rfl | cases hop⟩
  | gt => exact ⟨.gt, rfl, fun op hop => by cases op <;> first | rfl | cases hop⟩

theorem admits_le (o : Ordering) : Comparison.le.admits o = o.isLE := by
  cases o <;> rfl

theorem admits_negated (op : Comparison) (o : Ordering) :
    op.negated.admits o = !op.admits o := by
  cases op <;> cases o <;> rfl

theorem admits_mirrored (op : Comparison) (o : Ordering) :
    op.mirrored.admits o.swap = op.admits o := by
  cases op <;> cases o <;> rfl

/-- Every comparison is written by a token. -/
theorem exists_token (op : Comparison) :
    ∃ token : Token, Operator.ofKind? token.kind = some (.compare op) := by
  cases op with
  | eq => exact ⟨.synthetic .equals "==", rfl⟩
  | ne => exact ⟨.synthetic .notEquals "!=", rfl⟩
  | lt => exact ⟨.synthetic .less "<", rfl⟩
  | gt => exact ⟨.synthetic .greater ">", rfl⟩
  | le => exact ⟨.synthetic .lessEquals "<=", rfl⟩
  | ge => exact ⟨.synthetic .greaterEquals ">=", rfl⟩

end Comparison

/-- The value is known to be a number that can be compared, under some numeric type. -/
structure Value.Ordered (v : Value) (c : Constant) : Prop where
  isNumeric : v.type.isNumeric
  const : v.const = some c
  isOrdered : c.IsOrdered

theorem Value.Ordered.exists_numberKind {v : Value} {c : Constant} (h : v.Ordered c) :
    ∃ kind, v.type.numberKind? = some kind ∧ v.known? = some c := by
  obtain ⟨kind, hkind⟩ := Option.isSome_iff_exists.1 h.isNumeric
  refine ⟨kind, hkind, ?_⟩
  rw [Value.known?, Ty.isPure_of_numberKind hkind, if_pos rfl, h.const]

/-- Between the operands the comparison is folded to the truth value, without a report. -/
def Compares (settings : Settings) (left : Value) (op : Comparison) (right : Value) (b : Bool) :
    Prop :=
  ∀ token : Token, Operator.ofKind? token.kind = some (.compare op) →
    ∃ v, Silent (resolve settings left token right) v ∧ v.const = some (.bool b)

theorem Operation.compare_runs (o : Operation) {op : Comparison} (hop : o.op = .compare op)
    {a b : Constant} {order : Ordering} (hl : o.left.Ordered a) (hr : o.right.Ordered b)
    (h : a.compare? b = some order) :
    Silent o.outcome (some (.bool (some (op.admits order)))) := by
  obtain ⟨left, hleft, hl'⟩ := hl.exists_numberKind
  obtain ⟨right, hright, hr'⟩ := hr.exists_numberKind
  obtain ⟨sort, hsort, hnumber⟩ := OperandSort.of?_of_numbers hleft hright
  rw [o.outcome_of_sort hsort hnumber, onNumbers, hleft, hright]
  dsimp only
  rw [hop]
  dsimp only
  rw [compared?, Operation.known?, hl', hr', Option.bind_some]
  dsimp only
  rw [Constant.compareBy?, h]
  exact runs_pure _

section Compares

variable {settings : Settings} {x y z : Value} {a b c : Constant} {o : Ordering}

/-- A comparison is folded to what it asks of the order of the constants. -/
theorem compares_iff (hfold : settings.foldConstants) (hx : x.Ordered a) (hy : y.Ordered b)
    (h : a.compare? b = some o) (op : Comparison) {r : Bool} :
    Compares settings x op y r ↔ op.admits o = r := by
  have folds (token : Token) (htoken : Operator.ofKind? token.kind = some (.compare op)) :
      ∃ v, Silent (resolve settings x token y) v ∧ v.const = some (.bool (op.admits o)) := by
    let o : Operation := ⟨x, .compare op, token, y⟩
    exact ⟨_, resolve_runs htoken (fun _ => by simp) (o.compare_runs rfl hx hy h),
      o.const_finish hfold _⟩
  refine ⟨fun hr => ?_, ?_⟩
  · obtain ⟨token, htoken⟩ := op.exists_token
    obtain ⟨v, hv, hconst⟩ := folds token htoken
    obtain ⟨w, hw, hconst'⟩ := hr token htoken
    obtain ⟨rfl, -⟩ := hv.unique hw
    rw [hconst, Option.some.injEq, Constant.bool.injEq] at hconst'
    exact hconst'
  · rintro rfl
    exact folds

/-- Of the comparisons that ask for one order, one is true. -/
theorem compares_definite (hfold : settings.foldConstants) (hx : x.Ordered a)
    (hy : y.Ordered b) :
    ∃ one : Comparison, one.isDefinite ∧
      ∀ op : Comparison, op.isDefinite → Compares settings x op y (decide (op = one)) := by
  obtain ⟨o, h⟩ := hx.isOrdered.exists_compare? hy.isOrdered
  obtain ⟨one, hone, hadmits⟩ := Comparison.exists_admits_iff o
  exact ⟨one, hone, fun op hop => (compares_iff hfold hx hy h op).2 (hadmits op hop)⟩

theorem compares_negated (hfold : settings.foldConstants) (hx : x.Ordered a)
    (hy : y.Ordered b) (op : Comparison) (r : Bool) :
    Compares settings x op y r ↔ Compares settings x op.negated y (!r) := by
  obtain ⟨o, h⟩ := hx.isOrdered.exists_compare? hy.isOrdered
  rw [compares_iff hfold hx hy h, compares_iff hfold hx hy h, op.admits_negated, Bool.not_inj_iff]

theorem compares_mirrored (hfold : settings.foldConstants) (hx : x.Ordered a)
    (hy : y.Ordered b) (op : Comparison) (r : Bool) :
    Compares settings x op y r ↔ Compares settings y op.mirrored x r := by
  obtain ⟨o, h⟩ := hx.isOrdered.exists_compare? hy.isOrdered
  have hswap : b.compare? a = some o.swap := by
    rw [Constant.compare?_swap, h, Option.map_some]
  rw [compares_iff hfold hx hy h, compares_iff hfold hy hx hswap, op.admits_mirrored]

theorem compares_trans (hfold : settings.foldConstants) (hx : x.Ordered a) (hy : y.Ordered b)
    (hz : z.Ordered c) (hxy : Compares settings x .le y true)
    (hyz : Compares settings y .le z true) {r : Bool} :
    Compares settings x .le z r ↔ (r = true ↔ ¬Constant.Merged a b c) := by
  obtain ⟨o₁, h₁⟩ := hx.isOrdered.exists_compare? hy.isOrdered
  obtain ⟨o₂, h₂⟩ := hy.isOrdered.exists_compare? hz.isOrdered
  obtain ⟨o, h⟩ := hx.isOrdered.exists_compare? hz.isOrdered
  rw [compares_iff hfold hx hy h₁, Comparison.admits_le] at hxy
  rw [compares_iff hfold hy hz h₂, Comparison.admits_le] at hyz
  have htrans := Constant.isLE_trans hx.isOrdered hy.isOrdered hz.isOrdered h₁ h₂ h hxy hyz
  rw [compares_iff hfold hx hz h, Comparison.admits_le, ← htrans, Bool.eq_iff_iff]
  exact iff_comm

end Compares

/-- Comparisons of known numbers are folded by one order: of "less", "equal" and "greater" one is
true, the others are their opposites, and the operands may be swapped with the operator. "Less or
equal" goes on from two steps to one, but for two integers that a float between them does not tell
apart. -/
theorem resolve_compare (settings : Settings) (hfold : settings.foldConstants)
    {x y z : Value} {a b c : Constant} (hx : x.Ordered a) (hy : y.Ordered b) (hz : z.Ordered c) :
    (∃ one : Comparison, one.isDefinite ∧
      ∀ op : Comparison, op.isDefinite → Compares settings x op y (decide (op = one))) ∧
    (∀ op r, Compares settings x op y r ↔ Compares settings x op.negated y (!r)) ∧
    (∀ op r, Compares settings x op y r ↔ Compares settings y op.mirrored x r) ∧
    (Compares settings x .le y true → Compares settings y .le z true →
      (¬Constant.Merged a b c → Compares settings x .le z true) ∧
      (Constant.Merged a b c → Compares settings x .le z false)) := by
  refine ⟨compares_definite hfold hx hy, compares_negated hfold hx hy,
    compares_mirrored hfold hx hy, fun hxy hyz => ?_⟩
  have htrans {r : Bool} := compares_trans hfold hx hy hz hxy hyz (r := r)
  exact ⟨fun h => htrans.2 (iff_of_true rfl h),
    fun h => htrans.2 (iff_of_false Bool.false_ne_true (not_not_intro h))⟩

/-- Integers of both forms and a float. -/
theorem resolve_compare_mixed :
    let x : Value := .ofConstant (Ty.number .i8) (.signed (-1))
    let y : Value := .ofConstant (Ty.number .u64) (.unsigned 18446744073709551615)
    let z : Value := .ofConstant (Ty.number .f64) (.float (.ofInt 18446744073709551615))
    x.Ordered (.signed (-1)) ∧ y.Ordered (.unsigned 18446744073709551615) ∧
      z.Ordered (.float (.ofInt 18446744073709551615)) ∧
      Compares .default x .le y true ∧ Compares .default y .le z true ∧
      Compares .default x .le z true := by
  intro x y z
  have hx : x.Ordered (.signed (-1)) := ⟨rfl, rfl, rfl, by decide⟩
  have hy : y.Ordered (.unsigned 18446744073709551615) := ⟨rfl, rfl, rfl, by decide⟩
  have hz : z.Ordered (.float (.ofInt 18446744073709551615)) :=
    ⟨rfl, rfl, rfl, by decide +kernel⟩
  have hxy : Compares .default x .le y true :=
    (compares_iff rfl hx hy (o := .lt) rfl .le).2 rfl
  have hyz : Compares .default y .le z true :=
    (compares_iff rfl hy hz (o := .eq) (by decide +kernel) .le).2 rfl
  obtain ⟨-, -, -, htrans⟩ := resolve_compare .default rfl hx hy hz
  refine ⟨hx, hy, hz, hxy, hyz, (htrans hxy hyz).1 ?_⟩
  rintro ⟨m, n, w, -, hn, -⟩
  cases hn

/-- A float that is equal to two different integers, the greater one of them first. -/
theorem compare_not_transitive :
    let x : Value := .ofConstant (Ty.number .i64) (.signed 9007199254740993)
    let y : Value := .ofConstant (Ty.number .f64) (.float (.ofInt 9007199254740992))
    let z : Value := .ofConstant (Ty.number .i64) (.signed 9007199254740992)
    x.Ordered (.signed 9007199254740993) ∧ y.Ordered (.float (.ofInt 9007199254740992)) ∧
      z.Ordered (.signed 9007199254740992) ∧
      Compares .default x .le y true ∧ Compares .default y .le z true ∧
      ¬Compares .default x .le z true ∧ Compares .default x .le z false := by
  intro x y z
  have hx : x.Ordered (.signed 9007199254740993) := ⟨rfl, rfl, rfl, by decide⟩
  have hy : y.Ordered (.float (.ofInt 9007199254740992)) := ⟨rfl, rfl, rfl, by decide +kernel⟩
  have hz : z.Ordered (.signed 9007199254740992) := ⟨rfl, rfl, rfl, by decide⟩
  have hxz {r : Bool} : Compares .default x .le z r ↔ false = r :=
    compares_iff rfl hx hz (o := .gt) rfl .le
  exact ⟨hx, hy, hz, (compares_iff rfl hx hy (o := .eq) (by decide +kernel) .le).2 rfl,
    (compares_iff rfl hy hz (o := .eq) (by decide +kernel) .le).2 rfl,
    fun h => Bool.false_ne_true (hxz.1 h), hxz.2 rfl⟩

end ExprCheck
