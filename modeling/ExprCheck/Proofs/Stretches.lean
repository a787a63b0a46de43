/-
ExprCheck.Proofs.Stretches — how far a stretch looks.

A stretch is as long as its rule allows, so where it ends depends on what comes after it.
But what comes after it is looked at only to see that the stretch does not go on: a text
cut off anywhere behind the stretch begins with the same one (`scan_of_cut`). That is
shown rule by rule. A rule that yields a stretch together with the rest is `Local` if it
does the same on every text that is cut off behind it; runs of characters of one class are,
and numbers are put together from rules that are. `Begins` lists the rules for a whole
stretch, and `scan_iff` says that `scan` goes by them: what is said of stretches from there
on is said rule by rule, without a look at `scan`.

What a rule starts with is a condition on the first characters. It holds of a text if it
holds of the text cut off somewhere, which is why a rule that does not apply to a text does
not apply to a part of it either.
-/
import ExprCheck.Token.Scan

namespace ExprCheck.Token

open Text (isBlank isDigit isHexDigit)

/-! ## 1. Local rules -/

/-- A text that is cut off somewhere behind its front is cut off there as a whole. -/
theorem append_cut {front back cs rest : List Char} (h : front ++ back = cs) (hp : rest <+: back) :
    front ++ rest <+: cs :=
  h ▸ (List.prefix_append_right_inj front).2 hp

/-- The rule takes something from the front of a text, and takes the same from the text
wherever that is cut off behind it. -/
structure Local (rule : List Char → List Char × List Char) : Prop where
  append : ∀ cs, (rule cs).1 ++ (rule cs).2 = cs
  cut : ∀ cs rest, rest <+: (rule cs).2 → rule ((rule cs).1 ++ rest) = ((rule cs).1, rest)

/-- One rule after the other. -/
theorem Local.andThen {first second : List Char → List Char × List Char} (h : Local first)
    (h' : Local second) :
    Local fun cs => ((first cs).1 ++ (second (first cs).2).1, (second (first cs).2).2) where
  append cs := by
    show _ ++ _ ++ _ = _
    rw [List.append_assoc, h'.append, h.append]
  cut cs rest hp := by
    dsimp only
    rw [List.append_assoc, h.cut cs _ (append_cut (h'.append _) hp), h'.cut _ rest hp]

/-- The front of a text has the property, if the text cut off somewhere has. -/
theorem head?_of_cut {p : Char → Prop} {cs rest : List Char} (hp : rest <+: cs)
    (h : ∀ c ∈ cs.head?, p c) : ∀ c ∈ rest.head?, p c := by
  obtain ⟨more, rfl⟩ := hp
  cases rest with
  | nil => simp
  | cons c rest => simpa using h

theorem takeWhile_append_of_ends {p : Char → Bool} {run rest : List Char}
    (hrun : ∀ c ∈ run, p c = true) (hrest : ∀ c ∈ rest.head?, p c = false) :
    (run ++ rest).takeWhile p = run ∧ (run ++ rest).dropWhile p = rest := by
  rw [List.takeWhile_append_of_pos hrun, List.dropWhile_append_of_pos hrun]
  cases rest with
  | nil => simp
  | cons c rest => simp [hrest c rfl]

/-- A text is a run of characters of one class, as long as it can be, and a rest. -/
theorem exists_run (p : Char → Bool) (cs : List Char) : ∃ run rest, cs = run ++ rest ∧
    cs.takeWhile p = run ∧ cs.dropWhile p = rest ∧
      (∀ c ∈ run, p c = true) ∧ ∀ c ∈ rest.head?, p c = false := by
  refine ⟨cs.takeWhile p, cs.dropWhile p, List.takeWhile_append_dropWhile.symm, rfl, rfl,
    List.all_eq_true.1 List.all_takeWhile, ?_⟩
  intro c hc
  have hends := List.head?_dropWhile_not p cs
  rw [Option.mem_def.1 hc] at hends
  simpa using hends

/-- The characters of one class at the front of a text stay what they are. -/
theorem takeWhile_of_cut {p : Char → Bool} {cs run rest : List Char} (hrun : cs.takeWhile p = run)
    (hp : rest <+: cs.dropWhile p) :
    (run ++ rest).takeWhile p = run ∧ (run ++ rest).dropWhile p = rest := by
  obtain ⟨_, _, -, ht, hd, hall, hends⟩ := exists_run p cs
  obtain rfl := hrun.symm.trans ht
  subst hd
  exact takeWhile_append_of_ends hall (head?_of_cut hp hends)

theorem local_takeWhile (p : Char → Bool) :
    Local fun cs => (cs.takeWhile p, cs.dropWhile p) where
  append cs := List.takeWhile_append_dropWhile
  cut cs rest hp := by
    obtain ⟨ht, hd⟩ := takeWhile_of_cut rfl hp
    dsimp only
    rw [ht, hd]

/-! ## 2. Numbers -/

/-- A fraction starts here. -/
def AtFraction (cs : List Char) : Prop := ∃ d more, cs = '.' :: d :: more ∧ isDigit d

theorem AtFraction.of_cut {cs rest : List Char} (hp : rest <+: cs) (h : AtFraction rest) :
    AtFraction cs := by
  obtain ⟨more, rfl⟩ := hp
  obtain ⟨d, ds, rfl, hd⟩ := h
  exact ⟨d, ds ++ more, rfl, hd⟩

theorem scanFraction_point {d : Char} (hd : isDigit d) (cs : List Char) :
    scanFraction ('.' :: d :: cs) = ('.' :: d :: cs.takeWhile isDigit, cs.dropWhile isDigit) := by
  simp [scanFraction, hd]

theorem scanFraction_none {cs : List Char} (h : ¬AtFraction cs) : scanFraction cs = ([], cs) := by
  unfold scanFraction
  split
  · rename_i d more
    rw [if_neg fun hd => h ⟨d, more, rfl, hd⟩]
  · rfl

theorem local_scanFraction : Local scanFraction where
  append := scanFraction_append
  cut cs rest hp := by
    by_cases h : AtFraction cs
    · obtain ⟨d, more, rfl, hd⟩ := h
      rw [scanFraction_point hd] at hp ⊢
      obtain ⟨ht, hr⟩ := takeWhile_of_cut rfl hp
      rw [List.cons_append, List.cons_append, scanFraction_point hd, ht, hr]
    · rw [scanFraction_none h] at hp ⊢
      exact scanFraction_none fun h' => h (h'.of_cut hp)

/-- What follows a sign, in a text that is cut off somewhere. -/
theorem scanSign_of_cut {cs rest : List Char} (hp : rest <+: cs) :
    (scanSign rest).2 <+: (scanSign cs).2 := by
  obtain ⟨more, rfl⟩ := hp
  cases rest with
  | nil => exact List.nil_prefix
  | cons c rest =>
    simp only [List.cons_append, scanSign]
    split
    · exact List.prefix_append _ _
    · exact List.prefix_append (c :: rest) more

theorem local_scanSign : Local scanSign where
  append := scanSign_append
  cut cs rest hp := by
    cases cs with
    | nil =>
      rw [List.prefix_nil.1 hp]
      rfl
    | cons c cs =>
      by_cases hc : c = '+' ∨ c = '-'
      · simp [scanSign, hc]
      · simp only [scanSign, if_neg hc] at hp ⊢
        cases rest with
        | nil => rfl
        | cons d rest =>
          obtain ⟨rfl, -⟩ := List.cons_prefix_cons.1 hp
          simp [hc]

/-- An exponent starts here. -/
def AtExponent (cs : List Char) : Prop :=
  ∃ e more d, cs = e :: more ∧ (e = 'e' ∨ e = 'E') ∧ (scanSign more).2.head? = some d ∧ isDigit d

theorem AtExponent.of_cut {cs rest : List Char} (hp : rest <+: cs) (h : AtExponent rest) :
    AtExponent cs := by
  obtain ⟨more, rfl⟩ := hp
  obtain ⟨e, ds, d, rfl, he, hd, hdigit⟩ := h
  refine ⟨e, ds ++ more, d, rfl, he, ?_, hdigit⟩
  obtain ⟨after, hafter⟩ := scanSign_of_cut (List.prefix_append ds more)
  rw [← hafter, List.head?_append, hd]
  rfl

theorem scanExponent_some {e : Char} {cs : List Char} (h : AtExponent (e :: cs)) :
    scanExponent (e :: cs) = (e :: (scanSign cs).1 ++ (scanSign cs).2.takeWhile isDigit,
      (scanSign cs).2.dropWhile isDigit) := by
  obtain ⟨e', more, d, heq, he, hd, hdigit⟩ := h
  obtain ⟨rfl, rfl⟩ := List.cons.inj heq
  simp [scanExponent, he, hd, hdigit]

theorem scanExponent_none {cs : List Char} (h : ¬AtExponent cs) : scanExponent cs = ([], cs) := by
  unfold scanExponent
  split
  · rename_i e cs
    dsimp only
    rw [if_neg]
    rintro ⟨he, hany⟩
    obtain ⟨d, hd, hdigit⟩ := (Option.any_eq_true _ _).1 hany
    exact h ⟨e, cs, d, rfl, he, hd, hdigit⟩
  · rfl

theorem local_scanExponent : Local scanExponent where
  append := scanExponent_append
  cut cs rest hp := by
    by_cases h : AtExponent cs
    · obtain ⟨e, more, d, rfl, he, hd, hdigit⟩ := id h
      rw [scanExponent_some h] at hp ⊢
      dsimp only at hp ⊢
      generalize hsign : scanSign more = signed at hd hp ⊢
      obtain ⟨sign, digits⟩ := signed
      dsimp only at hd hp ⊢
      -- the sign is read again in front of the digits, and they in front of the rest
      obtain ⟨ht, hr⟩ := takeWhile_of_cut rfl hp
      have hprefix := append_cut List.takeWhile_append_dropWhile hp
      have hcut := local_scanSign.cut more (digits.takeWhile isDigit ++ rest)
      rw [hsign] at hcut
      have hagain : AtExponent (e :: (sign ++ (digits.takeWhile isDigit ++ rest))) := by
        refine ⟨e, _, d, rfl, he, ?_, hdigit⟩
        rw [hcut hprefix]
        cases digits with
        | nil => cases hd
        | cons d' digits =>
          obtain rfl := Option.some.inj hd
          simp [hdigit]
      rw [List.cons_append, List.cons_append, List.append_assoc, scanExponent_some hagain,
        hcut hprefix]
      dsimp only
      rw [ht, hr]
      rfl
    · rw [scanExponent_none h] at hp ⊢
      exact scanExponent_none fun h' => h (h'.of_cut hp)

theorem local_scanDecimal : Local scanDecimal :=
  ((local_takeWhile isDigit).andThen local_scanFraction).andThen local_scanExponent

/-- A base mark with a digit behind it. -/
def AtHex (cs : List Char) : Prop :=
  ∃ x d more, cs = '0' :: x :: d :: more ∧ (x = 'x' ∨ x = 'X') ∧ isHexDigit d

theorem AtHex.of_cut {cs rest : List Char} (hp : rest <+: cs) (h : AtHex rest) : AtHex cs := by
  obtain ⟨more, rfl⟩ := hp
  obtain ⟨x, d, ds, rfl, hx, hd⟩ := h
  exact ⟨x, d, ds ++ more, rfl, hx, hd⟩

theorem scanNumber_hex {x d : Char} (hx : x = 'x' ∨ x = 'X') (hd : isHexDigit d)
    (cs : List Char) :
    scanNumber ('0' :: x :: d :: cs) =
      ('0' :: x :: d :: cs.takeWhile isHexDigit, cs.dropWhile isHexDigit) := by
  simp [scanNumber, hx, hd]

theorem scanNumber_decimal {cs : List Char} (h : ¬AtHex cs) : scanNumber cs = scanDecimal cs := by
  unfold scanNumber
  split
  · rename_i x cs
    dsimp only
    rw [if_neg]
    rintro ⟨hx, hdigits⟩
    cases cs with
    | nil => simp at hdigits
    | cons d cs =>
      refine h ⟨x, d, cs, rfl, hx, ?_⟩
      cases hd : isHexDigit d with
      | true => rfl
      | false => simp [hd] at hdigits
  · rfl

theorem local_scanNumber : Local scanNumber where
  append := scanNumber_append
  cut cs rest hp := by
    by_cases h : AtHex cs
    · obtain ⟨x, d, more, rfl, hx, hd⟩ := h
      rw [scanNumber_hex hx hd] at hp ⊢
      obtain ⟨ht, hr⟩ := takeWhile_of_cut rfl hp
      rw [List.cons_append, List.cons_append, List.cons_append, scanNumber_hex hx hd, ht, hr]
    · rw [scanNumber_decimal h] at hp ⊢
      have hprefix := append_cut (scanDecimal_append cs) hp
      rw [scanNumber_decimal fun h' => h (h'.of_cut hprefix)]
      exact local_scanDecimal.cut cs rest hp

/-! ## 3. Texts and marks -/

theorem scanString_plain {c : Char} (hquote : c ≠ '"') (hbackslash : c ≠ '\\')
    (cs : List Char) :
    scanString (c :: cs) = (scanString cs).map fun (inside, rest) => (c :: inside, rest) := by
  rw [scanString, if_neg hbackslash]
  · exact hquote
  · exact fun _ _ h _ => hbackslash h

theorem scanString_backslash {d : Char} (h : d ≠ '\n') (cs : List Char) :
    scanString ('\\' :: d :: cs) =
      (scanString cs).map fun (inside, rest) => ('\\' :: d :: inside, rest) := by
  rw [scanString, if_neg h]

/-- A string literal ends at its quote, whatever comes after it. -/
theorem scanString_cut {cs inside rest : List Char} (h : scanString cs = some (inside, rest))
    (rest' : List Char) : scanString (inside ++ '"' :: rest') = some (inside, rest') := by
  fun_induction scanString cs generalizing inside with
  | case1 => cases h
  | case2 =>
    cases h
    rw [List.nil_append, scanString]
  | case3 => cases h
  | case4 c cs hc ih =>
    obtain ⟨⟨i, r⟩, hi, he⟩ := Option.map_eq_some_iff.1 h
    obtain ⟨rfl, rfl⟩ := Prod.mk.inj he
    rw [List.cons_append, List.cons_append, scanString_backslash hc, ih hi]
    rfl
  | case5 => cases h
  | case6 c cs hquote hescape hc ih =>
    obtain ⟨⟨i, r⟩, hi, he⟩ := Option.map_eq_some_iff.1 h
    obtain ⟨rfl, rfl⟩ := Prod.mk.inj he
    rw [List.cons_append, scanString_plain hquote hc, ih hi]
    rfl

/-- What is found first stays so where fewer are asked for, if it is among them. -/
theorem find?_of_imp {α : Type} {p q : α → Bool} {a : α} {as : List α}
    (h : as.find? p = some a) (hq : ∀ b, q b = true → p b = true) (ha : q a = true) :
    as.find? q = some a := by
  induction as with
  | nil => cases h
  | cons b as ih =>
    rw [List.find?_cons] at h ⊢
    cases hp : p b with
    | true =>
      rw [hp] at h
      cases h
      rw [ha]
    | false =>
      rw [hp] at h
      cases hb : q b with
      | true => exact absurd (hq b hb) (by simp [hp])
      | false => exact ih h

/-- The first mark that the text begins with is also the first that it begins with where
it is cut off behind the mark. -/
theorem scanMark_of_cut {cs mark rest : List Char} {kind : Kind}
    (h : scanMark cs = some (kind, mark)) (hp : rest <+: cs.drop mark.length) :
    scanMark (mark ++ rest) = some (kind, mark) := by
  have hprefix := append_cut (scanMark_append h) hp
  refine find?_of_imp h (fun m hm => ?_) ?_
  · exact List.isPrefixOf_iff_prefix.2 ((List.isPrefixOf_iff_prefix.1 hm).trans hprefix)
  · exact List.isPrefixOf_iff_prefix.2 (List.prefix_append mark rest)

/-! ## 4. Stretches -/

/-- The rules for the first stretch of a text, of which one applies where none before it does.
A run is as long as it can be: what is behind it does not go on with the same class. -/
inductive Begins : List Char → Stretch → Prop
  | word {c : Char} {run rest : List Char} (hc : isWordStart c)
      (hrun : ∀ d ∈ run, isWordChar d = true) (hrest : ∀ d ∈ rest.head?, isWordChar d = false) :
      Begins (c :: (run ++ rest))
        ⟨some (wordKind (String.ofList (c :: run)), String.ofList (c :: run)), c :: run, rest⟩
  | number {c : Char} {cs text rest : List Char} (hword : ¬isWordStart c) (hc : isDigit c)
      (htext : scanNumber (c :: cs) = (text, rest)) :
      Begins (c :: cs) ⟨some (.number, String.ofList text), text, rest⟩
  | blanks {c : Char} {run rest : List Char} (hword : ¬isWordStart c) (hdigit : ¬isDigit c)
      (hc : isBlank c) (hrun : ∀ d ∈ run, isBlank d = true)
      (hrest : ∀ d ∈ rest.head?, isBlank d = false) :
      Begins (c :: (run ++ rest)) ⟨none, c :: run, rest⟩
  | string {cs inside rest : List Char} (hinside : scanString cs = some (inside, rest)) :
      Begins ('"' :: cs)
        ⟨some (.string, String.ofList (unescape inside)), '"' :: inside ++ ['"'], rest⟩
  | comment {run rest : List Char} (hrun : ∀ d ∈ run, d ≠ '\n')
      (hrest : ∀ d ∈ rest.head?, d = '\n') :
      Begins ('/' :: '/' :: (run ++ rest)) ⟨none, '/' :: '/' :: run, rest⟩
  | mark {c : Char} {cs text : List Char} {kind : Kind} (hword : ¬isWordStart c)
      (hdigit : ¬isDigit c) (hblank : ¬isBlank c) (hquote : c ≠ '"')
      (hcomment : ¬(c = '/' ∧ cs.head? = some '/'))
      (hmark : scanMark (c :: cs) = some (kind, text)) :
      Begins (c :: cs) ⟨some (kind, String.ofList text), text, (c :: cs).drop text.length⟩

theorem begins_of_scan {cs : List Char} {s : Stretch} (h : scan cs = some s) : Begins cs s := by
  unfold scan at h
  split at h
  · cases h
  rename_i c cs
  dsimp only at h
  split at h
  · rename_i hc
    obtain ⟨run, rest, rfl, ht, hd, hrun, hrest⟩ := exists_run isWordChar cs
    have hchar : isWordChar c := by simp [isWordChar, hc]
    rw [List.takeWhile_cons_of_pos hchar, List.dropWhile_cons_of_pos hchar, ht, hd] at h
    cases h
    exact .word hc hrun hrest
  rename_i hword
  split at h
  · rename_i hc
    cases h
    exact .number hword hc rfl
  rename_i hdigit
  split at h
  · rename_i hc
    obtain ⟨run, rest, rfl, ht, hd, hrun, hrest⟩ := exists_run isBlank cs
    rw [List.takeWhile_cons_of_pos hc, List.dropWhile_cons_of_pos hc, ht, hd] at h
    cases h
    exact .blanks hword hdigit hc hrun hrest
  rename_i hblank
  split at h
  · rename_i hc
    subst hc
    obtain ⟨⟨inside, rest⟩, hinside, rfl⟩ := Option.map_eq_some_iff.1 h
    exact .string hinside
  rename_i hquote
  split at h
  · rename_i hc
    obtain ⟨rfl, hhead⟩ := hc
    obtain ⟨cs, rfl⟩ := List.head?_eq_some_iff.1 hhead
    obtain ⟨run, rest, rfl, ht, hd, hrun, hrest⟩ := exists_run (· ≠ '\n') cs
    rw [List.takeWhile_cons_of_pos (by decide), List.takeWhile_cons_of_pos (by decide),
      List.dropWhile_cons_of_pos (by decide), List.dropWhile_cons_of_pos (by decide), ht, hd] at h
    cases h
    exact .comment (by simpa using hrun) (by simpa using hrest)
  · rename_i hcomment
    obtain ⟨⟨kind, mark⟩, hmark, rfl⟩ := Option.map_eq_some_iff.1 h
    exact .mark hword hdigit hblank hquote hcomment hmark

theorem scan_quote (cs : List Char) : scan ('"' :: cs) =
    (scanString cs).map fun (inside, rest) =>
      ⟨some (.string, String.ofList (unescape inside)), '"' :: inside ++ ['"'], rest⟩ := by
  rw [scan, if_neg (by decide), if_neg (by decide), if_neg (by decide), if_pos rfl]

theorem scan_of_begins {cs : List Char} {s : Stretch} (h : Begins cs s) : scan cs = some s := by
  cases h with
  | @word c run rest hc hrun hrest =>
    have hall : ∀ d ∈ c :: run, isWordChar d = true := by simpa [isWordChar, hc] using hrun
    obtain ⟨ht, hd⟩ := takeWhile_append_of_ends hall hrest
    rw [List.cons_append] at ht hd
    rw [scan, if_pos hc, ht, hd]
  | number hword hc htext => rw [scan, if_neg hword, if_pos hc, htext]
  | @blanks c run rest hword hdigit hc hrun hrest =>
    obtain ⟨ht, hd⟩ := takeWhile_append_of_ends (List.forall_mem_cons.2 ⟨hc, hrun⟩) hrest
    rw [List.cons_append] at ht hd
    rw [scan, if_neg hword, if_neg hdigit, if_pos hc, ht, hd]
  | string hinside =>
    rw [scan_quote, hinside]
    rfl
  | @comment run rest hrun hrest =>
    have hall : ∀ d ∈ '/' :: '/' :: run, decide (d ≠ '\n') = true := by simpa using hrun
    have hends : ∀ d ∈ rest.head?, decide (d ≠ '\n') = false := by simpa using hrest
    obtain ⟨ht, hd⟩ := takeWhile_append_of_ends hall hends
    rw [List.cons_append, List.cons_append] at ht hd
    rw [scan, if_neg (by decide), if_neg (by decide), if_neg (by decide), if_neg (by decide),
      if_pos ⟨rfl, rfl⟩, ht, hd]
  | mark hword hdigit hblank hquote hcomment hmark =>
    rw [scan, if_neg hword, if_neg hdigit, if_neg hblank, if_neg hquote, if_neg hcomment, hmark]
    rfl

theorem scan_iff {cs : List Char} {s : Stretch} : scan cs = some s ↔ Begins cs s :=
  ⟨begins_of_scan, scan_of_begins⟩

/-- A text that is cut off behind its first stretch begins with the same one. -/
theorem scan_of_cut {cs : List Char} {s : Stretch} (h : scan cs = some s) {rest : List Char}
    (hp : rest <+: s.rest) : scan (s.text ++ rest) = some ⟨s.word, s.text, rest⟩ := by
  have happend := scan_append h
  have hne := scan_ne_nil h
  rw [scan_iff] at h ⊢
  cases h with
  | word hc hrun hrest => exact .word hc hrun (head?_of_cut hp hrest)
  | blanks hword hdigit hc hrun hrest =>
    exact .blanks hword hdigit hc hrun (head?_of_cut hp hrest)
  | comment hrun hrest => exact .comment hrun (head?_of_cut hp hrest)
  | string hinside => simpa using Begins.string (scanString_cut hinside rest)
  | @number c cs text after hword hc htext =>
    obtain ⟨c, text, rfl⟩ := List.exists_cons_of_ne_nil hne
    obtain ⟨rfl, -⟩ := List.cons.inj happend
    have hcut := local_scanNumber.cut (c :: cs) rest
    rw [htext] at hcut
    exact .number hword hc (hcut hp)
  | @mark c cs text kind hword hdigit hblank hquote hcomment hmark =>
    obtain ⟨c, text, rfl⟩ := List.exists_cons_of_ne_nil hne
    obtain ⟨rfl, htail⟩ := List.cons.inj happend
    have hcut : ¬(c = '/' ∧ (text ++ rest).head? = some '/') := by
      rintro ⟨hc, hslash⟩
      obtain ⟨more, rfl⟩ : text ++ rest <+: cs := append_cut htail hp
      exact hcomment ⟨hc, by rw [List.head?_append, hslash]; rfl⟩
    have hbegins := Begins.mark hword hdigit hblank hquote hcut (scanMark_of_cut hmark hp)
    rw [← List.cons_append, List.drop_left] at hbegins
    exact hbegins

end ExprCheck.Token
