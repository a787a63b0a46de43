/-
ExprCheck.Proofs.Literals — integers as they are written.

An integer is written in decimal digits, with a minus in front if it is negative, or in
hexadecimal digits of either case behind a base mark, and zeros may stand in front of the
digits. However it is written, the text is read as the same constant of the same type
(`evaluate_spelling`).

The digits are one word, which is read as their number (`Numeral`). A decimal number with an
`e` in it would be a float, but behind a base mark an `e` is a digit. A minus is a word of its
own, and what stands behind it is no negative number: the least integer of 64 bits is written
as the negation of one that the signed words do not have.
-/
import ExprCheck.Proofs.Digits
import ExprCheck.Proofs.Negated
import ExprCheck.Proofs.Tiling

namespace ExprCheck

open Check
open Text (isDigit isHexDigit ofDigits)

/-! ## 1. Digits as words -/

namespace Token

theorem scan_digit {c : Char} (hc : isDigit c) (cs : List Char) :
    scan (c :: cs) = some ⟨some (.number, String.ofList (scanNumber (c :: cs)).1),
      (scanNumber (c :: cs)).1, (scanNumber (c :: cs)).2⟩ := by
  have hword : isWordStart c = false := by
    have hall : ∀ d < 10, isWordStart (Nat.digitChar d) = false := by decide
    obtain ⟨d, hd, rfl⟩ := Text.exists_digitChar hc
    exact hall d hd
  exact scan_iff.2 (.number (Bool.eq_false_iff.1 hword) hc rfl)

/-- A text that is scanned as a number to its end is one word. -/
theorem alone_of_scanNumber {c : Char} {cs : List Char} (hc : isDigit c)
    (h : scanNumber (c :: cs) = (c :: cs, [])) :
    Alone (c :: cs) .number (String.ofList (c :: cs)) := by
  have hscan := scan_digit hc cs
  rw [h] at hscan
  exact alone_of_scan hscan rfl

theorem takeWhile_of_all {p : Char → Bool} {cs : List Char} (h : ∀ c ∈ cs, p c = true) :
    cs.takeWhile p = cs ∧ cs.dropWhile p = [] := by
  simpa using @takeWhile_append_of_ends p cs [] h (by simp)

/-- The tokens of a text that is one word. -/
theorem Alone.exists_tokenizeFrom {cs : List Char} {kind : Kind} {value : String}
    (h : Alone cs kind value) (file : String) (offset : Nat) :
    ∃ t stop, t.kind = kind ∧ t.value = value ∧
      tokenizeFrom file offset cs = .ok [t, endMark file stop] :=
  ⟨_, _, rfl, rfl, h file offset⟩

/-- A minus is a word of its own, whatever stands behind it. -/
theorem exists_tokenizeFrom_minus (file : String) (offset : Nat) (cs : List Char) :
    ∃ minus, minus.kind = .dash ∧ tokenizeFrom file offset ('-' :: cs) =
      (tokenizeFrom file (offset + 1) cs).map (minus :: ·) := by
  have hscan : scan ('-' :: cs) = some ⟨some (.dash, "-"), ['-'], cs⟩ := rfl
  exact ⟨_, rfl, tokenizeFrom_word hscan rfl⟩

theorem scanNumber_digits {ds : List Char} (hds : ∀ c ∈ ds, isDigit c = true) :
    scanNumber ds = (ds, []) := by
  have hhex : ¬AtHex ds := by
    rintro ⟨x, d, more, rfl, hx, -⟩
    have hdigit := hds x (by simp)
    rcases hx with rfl | rfl <;> cases hdigit
  obtain ⟨htake, hdrop⟩ := takeWhile_of_all hds
  rw [scanNumber_decimal hhex, scanDecimal, hdrop, htake]
  simp [scanFraction, scanExponent]

theorem scanNumber_hexDigits {x : Char} (hx : x = 'x' ∨ x = 'X') {ds : List Char}
    (hne : ds ≠ []) (hds : ∀ c ∈ ds, isHexDigit c = true) :
    scanNumber ('0' :: x :: ds) = ('0' :: x :: ds, []) := by
  obtain ⟨d, ds, rfl⟩ := List.exists_cons_of_ne_nil hne
  obtain ⟨hd, hds⟩ := List.forall_mem_cons.1 hds
  obtain ⟨htake, hdrop⟩ := takeWhile_of_all hds
  rw [scanNumber_hex hx hd, htake, hdrop]

end Token

/-! ## 2. Digits as numbers -/

/-- Without a base mark digits are read as decimal ones. -/
theorem readNumber?_digits {ds : List Char} (hne : ds ≠ []) (hds : ∀ c ∈ ds, isDigit c = true)
    (hbound : ofDigits 10 ds < Nat.pow 2 64) :
    readNumber? ds = some (.ofNat (ofDigits 10 ds)) := by
  -- no digit is a base mark, a point or an exponent
  have hplain : ∀ c ∈ ds, c ≠ 'x' ∧ c ≠ 'X' ∧ c ≠ '.' ∧ c ≠ 'e' ∧ c ≠ 'E' := by
    have hall : ∀ d < 10, Nat.digitChar d ≠ 'x' ∧ Nat.digitChar d ≠ 'X' ∧
        Nat.digitChar d ≠ '.' ∧ Nat.digitChar d ≠ 'e' ∧ Nat.digitChar d ≠ 'E' := by decide
    intro c hc
    obtain ⟨d, hd, rfl⟩ := Text.exists_digitChar (hds c hc)
    exact hall d hd
  have hfloat : (ds.any fun c => c = '.' || c = 'e' || c = 'E') = false := by
    rw [List.any_eq_false]
    intro c hc
    obtain ⟨-, -, hpoint, hsmall, hgreat⟩ := hplain c hc
    simp [hpoint, hsmall, hgreat]
  have hread : Text.readDecimal64? ds = some (ofDigits 10 ds) :=
    Text.readNat?_eq rfl hne hds hbound
  unfold readNumber?
  split
  · exact absurd rfl (hplain 'x' (by simp)).1
  · exact absurd rfl (hplain 'X' (by simp)).2.1
  · simp only [hfloat, hread, Bool.false_eq_true, if_false]

theorem readNumber?_hexDigits {x : Char} (hx : x = 'x' ∨ x = 'X') {ds : List Char}
    (hne : ds ≠ []) (hds : ∀ c ∈ ds, isHexDigit c = true)
    (hbound : ofDigits 16 ds < Nat.pow 2 64) :
    readNumber? ('0' :: x :: ds) = some (.ofNat (ofDigits 16 ds)) := by
  have hread : Text.readHex64? ds = some (ofDigits 16 ds) :=
    Text.readNat?_eq rfl hne hds hbound
  rcases hx with rfl | rfl <;> simp only [readNumber?, hread, Option.map_some]

/-- The text is one word, which is read as the number. -/
structure Numeral (n : Nat) (cs : List Char) : Prop where
  alone : Token.Alone cs .number (String.ofList cs)
  read : readNumber? cs = some (.ofNat n)

namespace Numeral

variable {n : Nat}

theorem decimal (hn : n < Nat.pow 2 64) (zeros : Nat) :
    Numeral n (List.replicate zeros '0' ++ Nat.toDigits 10 n) := by
  have hvalue : ofDigits 10 (List.replicate zeros '0' ++ Nat.toDigits 10 n) = n := by
    rw [Text.ofDigits_zeros, Text.ofDigits_toDigits (by decide) (by decide)]
  have hds : ∀ c ∈ List.replicate zeros '0' ++ Nat.toDigits 10 n, isDigit c = true := by
    intro c hc
    rcases List.mem_append.1 hc with hzero | hdigit
    · rw [List.eq_of_mem_replicate hzero]
      rfl
    · exact Text.isDigit_toDigits n c hdigit
  have hne : List.replicate zeros '0' ++ Nat.toDigits 10 n ≠ [] :=
    List.append_ne_nil_of_right_ne_nil _ Nat.toDigits_ne_nil
  have hread := readNumber?_digits hne hds (by rwa [hvalue])
  rw [hvalue] at hread
  obtain ⟨c, cs, hcs⟩ := List.exists_cons_of_ne_nil hne
  rw [hcs] at hds hread ⊢
  have hfirst := hds c (List.mem_cons_self ..)
  exact ⟨Token.alone_of_scanNumber hfirst (Token.scanNumber_digits hds), hread⟩

theorem hexadecimal (hn : n < Nat.pow 2 64) {zeros : Nat} {x : Char} (hx : x = 'x' ∨ x = 'X')
    {ds : List Char}
    (hds : ds.map Char.toLower = List.replicate zeros '0' ++ Nat.toDigits 16 n) :
    Numeral n ('0' :: x :: ds) := by
  have hvalue : ofDigits 16 ds = n := by
    rw [← Text.ofDigits_map_toLower, hds, Text.ofDigits_zeros,
      Text.ofDigits_toDigits (by decide) (by decide)]
  have hdigits : ∀ c ∈ ds, isHexDigit c = true := by
    intro c hc
    have hlower : c.toLower ∈ ds.map Char.toLower := List.mem_map_of_mem hc
    rw [← (Text.digit_toLower c).2]
    rw [hds] at hlower
    rcases List.mem_append.1 hlower with hzero | hdigit
    · rw [List.eq_of_mem_replicate hzero]
      rfl
    · exact Text.isHexDigit_toDigits (by decide) (by decide) n _ hdigit
  have hne : ds ≠ [] := by
    rintro rfl
    exact List.append_ne_nil_of_right_ne_nil _ Nat.toDigits_ne_nil hds.symm
  have hread := readNumber?_hexDigits hx hne hdigits (by rwa [hvalue])
  rw [hvalue] at hread
  exact ⟨Token.alone_of_scanNumber rfl (Token.scanNumber_hexDigits hx hne hdigits), hread⟩

end Numeral

/-! ## 3. Values -/

theorem Constant.integer?_ofNat {n : Nat} (h : n < Nat.pow 2 64) :
    (ofNat n).integer? = some (n : Int) := by
  unfold ofNat
  split
  · rename_i hlt
    exact congrArg some (Int64.toInt_ofNat_of_lt hlt)
  · exact congrArg (fun k : Nat => some (k : Int)) (UInt64.toNat_ofNat_of_lt' h)

theorem Constant.heldAs_ofNat (n : Nat) :
    (ofNat n).HeldAs (if n < Nat.pow 2 63 then .i64 else .u64) := by
  unfold ofNat
  split <;> rfl

/-- Only the widest unsigned type has the numbers that no signed word has. -/
theorem NumberKind.Narrowest.eq_u64 {kind : NumberKind} {n : Int} (h : Narrowest .u64 kind n)
    (hn : Nat.pow 2 63 ≤ n) : kind = .u64 := by
  have hwidest := h.widest
  have hholds := h.holds
  have hn : 9223372036854775808 ≤ n := hn
  cases kind with
  | i8 | i16 | i32 | i64 | f32 | f64 => cases hwidest
  | u64 => rfl
  | u8 | u16 | u32 =>
    obtain ⟨-, hgreatest⟩ := hholds
    have hsmall : n ≤ 4294967295 := Int.le_trans hgreatest (by decide)
    omega

/-- The text is tokenized and evaluated without a report, to the constant under the type. -/
def Env.Yields (env : Env) (cs : List Char) (c : Constant) (type : Ty) : Prop :=
  ∀ file, ∃ ts v, Token.tokenize file (String.ofList cs) = .ok ts ∧ Silent (evaluate env ts) v ∧
    v.const = some c ∧ v.type = type

namespace Numeral

variable {env : Env} {n : Nat} {cs : List Char} {kind : NumberKind}

theorem evaluates (h : Numeral n cs) (hkind : (Constant.ofNat n).narrowestKind? = some kind)
    {t : Token} (ht : t.value = String.ofList cs) :
    Evaluates env (.number t)
      { Value.ofConstant (Ty.number kind) (.ofNat n) with text := t.value } [] := by
  have hread : readNumber? t.value.toList = some (.ofNat n) := by
    rw [ht, String.toList_ofList, h.read]
  refine .number ?_
  rw [Value.number, Value.ofNumber?, hread]
  simp only [Option.bind_eq_bind, Option.bind_some, hkind]
  exact runs_pure _

theorem yields (h : Numeral n cs) (hkind : (Constant.ofNat n).narrowestKind? = some kind) :
    env.Yields cs (.ofNat n) (Ty.number kind) := by
  intro file
  obtain ⟨t, stop, ht, hvalue, htokens⟩ := h.alone.exists_tokenizeFrom file 0
  have hsentence : Derives .or (Token.withoutEof [t, Token.endMark file stop]) (.number t) :=
    (Derives.number ht).loosen (by decide)
  have hrun : Silent ((Expr.number t).eval env) _ :=
    Expr.evaluates_iff_runs.1 (h.evaluates hkind hvalue)
  rw [← hsentence.evaluate_span] at hrun
  refine ⟨_, _, ?_, hrun, rfl, rfl⟩
  rw [Token.tokenize, String.toList_ofList, htokens]

/-- With a minus in front the number is evaluated to its negation, where the signed words have
that. -/
theorem yields_minus (h : Numeral n cs) (hfold : env.settings.foldConstants)
    (hn : n ≤ Nat.pow 2 63)
    (hkind : (Constant.signed (.ofInt (-n))).narrowestKind? = some kind) :
    env.Yields ('-' :: cs) (.signed (.ofInt (-n))) (Ty.number kind) := by
  intro file
  have hn : n ≤ 9223372036854775808 := hn
  have hinteger := Constant.integer?_ofNat (n := n) (show n < 18446744073709551616 by omega)
  have hnegated : Value.negated (.ofNat n) = .signed (.ofInt (-n)) := by
    refine Value.negated_of_holds hinteger ?_
    rw [NumberKind.holds_i64]
    omega
  obtain ⟨minus, hminus, hfirst⟩ := Token.exists_tokenizeFrom_minus file 0 cs
  obtain ⟨t, stop, ht, hvalue, htokens⟩ := h.alone.exists_tokenizeFrom file 1
  obtain ⟨own, hown, -⟩ := Constant.narrowest_narrowestKind (Constant.heldAs_ofNat n) hinteger
  have hspan : Token.withoutEof [minus, t, Token.endMark file stop] = [minus, t] := rfl
  obtain ⟨kind', text, hkind', hrun⟩ := evaluate_minus hfold hminus
    ((Derives.number ht).loosen (by decide)) (h.evaluates hown hvalue) (Ty.numberKind?_number own)
    rfl .bare .bare hspan
  rw [hnegated] at hkind' hrun
  rw [hkind, Option.some.injEq] at hkind'
  refine ⟨_, _, ?_, hrun, rfl, by rw [hkind']; rfl⟩
  rw [Token.tokenize, String.toList_ofList, hfirst, Nat.zero_add, htokens]
  rfl

end Numeral

/-! ## 4. Spellings -/

/-- The ways to write an integer. -/
inductive Spells : Int → List Char → Prop
  | decimal (n zeros : Nat) : Spells n (List.replicate zeros '0' ++ Nat.toDigits 10 n)
  | negative {n : Nat} (hn : 0 < n) (zeros : Nat) :
      Spells (-n) ('-' :: (List.replicate zeros '0' ++ Nat.toDigits 10 n))
  | hexadecimal {n zeros : Nat} {x : Char} {ds : List Char} (hx : x = 'x' ∨ x = 'X')
      (hds : ds.map Char.toLower = List.replicate zeros '0' ++ Nat.toDigits 16 n) :
      Spells n ('0' :: x :: ds)

/-- What writes a natural number is a numeral of it. -/
theorem Spells.numeral {n : Nat} {cs : List Char} (h : Spells n cs) (hn : n < Nat.pow 2 64) :
    Numeral n cs := by
  generalize hm : (n : Int) = m at h
  cases h with
  | decimal k zeros =>
    obtain rfl := Int.ofNat_inj.1 hm
    exact .decimal hn zeros
  | negative hk zeros => omega
  | hexadecimal hx hds =>
    obtain rfl := Int.ofNat_inj.1 hm
    exact .hexadecimal hn hx hds

/-- What writes a negative number is a minus and a numeral. -/
theorem Spells.numeral_of_neg {n : Nat} {cs : List Char} (h : Spells (-n) cs) (hpos : 0 < n)
    (hn : n < Nat.pow 2 64) : ∃ ds, cs = '-' :: ds ∧ Numeral n ds := by
  generalize hm : (-n : Int) = m at h
  cases h with
  | decimal | hexadecimal => omega
  | @negative k hk zeros =>
    obtain rfl : n = k := by omega
    exact ⟨_, rfl, .decimal hn zeros⟩

/-- However an integer of 64 bits is written, the text is evaluated to one constant, which is the
integer, under one type: the narrowest signed type that has it, and else the widest unsigned
type. -/
theorem evaluate_spelling {env : Env} (hfold : env.settings.foldConstants) {n : Int}
    (hlow : -Nat.pow 2 63 ≤ n) (hhigh : n < Nat.pow 2 64) :
    ∃ c kind, c.integer? = some n ∧ (n < Nat.pow 2 63 → NumberKind.Narrowest .i64 kind n) ∧
      (Nat.pow 2 63 ≤ n → kind = .u64) ∧
      ∀ cs, Spells n cs → env.Yields cs c (Ty.number kind) := by
  rcases Int.lt_or_le n 0 with hneg | hpos
  · obtain ⟨m, rfl⟩ := Int.exists_eq_neg_ofNat (Int.le_of_lt hneg)
    have hm : m ≤ 9223372036854775808 := Int.ofNat_le.1 (Int.neg_le_neg_iff.1 hlow)
    have hinteger : (Constant.signed (.ofInt (-m))).integer? = some (-m : Int) := by
      rw [Constant.integer?, Int64.toInt_ofInt_of_le (by omega) (by omega)]
    have hheld : (Constant.signed (.ofInt (-m))).HeldAs .i64 := rfl
    obtain ⟨kind, hkind, hnarrowest⟩ := Constant.narrowest_narrowestKind hheld hinteger
    refine ⟨_, kind, hinteger, fun _ => hnarrowest, fun hgreat => ?_, fun cs hcs => ?_⟩
    · have hgreat : 9223372036854775808 ≤ (-m : Int) := hgreat
      omega
    · have hbound : m < 18446744073709551616 := by omega
      obtain ⟨ds, rfl, hds⟩ := hcs.numeral_of_neg (by omega) hbound
      exact hds.yields_minus hfold hm hkind
  · obtain ⟨m, rfl⟩ := Int.eq_ofNat_of_zero_le hpos
    have hm : m < Nat.pow 2 64 := Int.ofNat_lt.1 hhigh
    have hinteger := Constant.integer?_ofNat hm
    obtain ⟨kind, hkind, hnarrowest⟩ :=
      Constant.narrowest_narrowestKind (Constant.heldAs_ofNat m) hinteger
    refine ⟨_, kind, hinteger, fun hlt => ?_, fun hge => ?_, fun cs hcs => ?_⟩
    · rwa [if_pos (Int.ofNat_lt.1 hlt)] at hnarrowest
    · rw [if_neg (Nat.not_lt.2 (Int.ofNat_le.1 hge))] at hnarrowest
      exact hnarrowest.eq_u64 hge
    · exact (hcs.numeral hm).yields hkind

/-- The least integer that has a type, with zeros in front, and the greatest, in hexadecimal
digits of both cases. -/
theorem evaluate_spelling_ends :
    let env : Env := default
    env.settings.foldConstants ∧
      (∃ c kind, c.integer? = some (-9223372036854775808) ∧
        env.Yields "-0009223372036854775808".toList c (Ty.number kind)) ∧
      ∃ c, c.integer? = some 18446744073709551615 ∧
        env.Yields "0X00ffFFffFFffFFfFFF".toList c (Ty.number .u64) := by
  intro env
  have hleast : Spells (-9223372036854775808) "-0009223372036854775808".toList := by
    have hdigits : "-0009223372036854775808".toList =
        '-' :: (List.replicate 3 '0' ++ Nat.toDigits 10 9223372036854775808) := by decide +kernel
    rw [hdigits]
    exact .negative (by decide) 3
  have hgreatest : Spells 18446744073709551615 "0X00ffFFffFFffFFfFFF".toList := by
    have hdigits : "00ffFFffFFffFFfFFF".toList.map Char.toLower =
        List.replicate 2 '0' ++ Nat.toDigits 16 18446744073709551615 := by decide +kernel
    exact .hexadecimal (.inr rfl) hdigits
  refine ⟨rfl, ?_, ?_⟩
  · obtain ⟨c, kind, hc, -, -, hall⟩ :=
      @evaluate_spelling env rfl (-9223372036854775808) (by decide) (by decide)
    exact ⟨c, kind, hc, hall _ hleast⟩
  · obtain ⟨c, kind, hc, -, hkind, hall⟩ :=
      @evaluate_spelling env rfl 18446744073709551615 (by decide) (by decide)
    obtain rfl := hkind (by decide)
    exact ⟨c, hc, hall _ hgreatest⟩

end ExprCheck
