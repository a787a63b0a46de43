/-
ExprCheck.Proofs.Reading — how a spelling is read from its parts.

Reading strips the stars in front of a spelling, then the blanks around what is left, and then
goes by the outermost brackets. `Shaped` puts it the other way round: it lists the ways to put
parts together, and there are no others (`shaped_of_shape?`). Put together in one of them,
parts whose brackets close are read each by itself (`read?_of_shaped`), and the brackets close
in everything that can be read (`closed_of_read?`).

For blanks there are two equations, since the two ends of a spelling are not alike. Blanks
behind it do not matter (`read?_append_blanks`). Blanks in front of it do not matter unless it
begins with a star (`read?_blanks_append`): stars are looked for only in front of blanks, so a
star behind one is taken for the beginning of a name, and no name begins so.
-/
import ExprCheck.Proofs.Brackets
import ExprCheck.Proofs.Digits

namespace ExprCheck

/-! ## 1. Blanks at the ends of a text -/

namespace Text

variable {cs gap : List Char}

/-- The text has no characters but blanks. -/
def Blanks (cs : List Char) : Prop := ∀ c ∈ cs, isBlank c

instance (cs : List Char) : Decidable (Blanks cs) :=
  decidable_of_iff (cs.all isBlank) List.all_eq_true

theorem Blanks.append {gap' : List Char} (h : Blanks gap) (h' : Blanks gap') :
    Blanks (gap ++ gap') :=
  List.forall_mem_append.2 ⟨h, h'⟩

/-- The text without the blanks at its end. -/
def trimEnd (cs : List Char) : List Char := (cs.reverse.dropWhile isBlank).reverse

theorem trim_eq (cs : List Char) : trim cs = trimEnd (cs.dropWhile isBlank) := rfl

theorem exists_trimEnd (cs : List Char) : ∃ gap, Blanks gap ∧ cs = trimEnd cs ++ gap := by
  refine ⟨(cs.reverse.takeWhile isBlank).reverse, fun c hc => ?_, ?_⟩
  · exact List.all_eq_true.1 List.all_takeWhile c (List.mem_reverse.1 hc)
  · rw [trimEnd, ← List.reverse_append, List.takeWhile_append_dropWhile, List.reverse_reverse]

theorem exists_trim (cs : List Char) :
    ∃ gap gap', Blanks gap ∧ Blanks gap' ∧ cs = gap ++ trim cs ++ gap' := by
  obtain ⟨gap', hgap', heq⟩ := exists_trimEnd (cs.dropWhile isBlank)
  refine ⟨cs.takeWhile isBlank, gap', fun c hc => ?_, hgap', ?_⟩
  · exact List.all_eq_true.1 List.all_takeWhile c hc
  · rw [trim_eq, List.append_assoc, ← heq, List.takeWhile_append_dropWhile]

theorem trimEnd_append_blanks (hgap : Blanks gap) : trimEnd (cs ++ gap) = trimEnd cs := by
  rw [trimEnd, List.reverse_append,
    List.dropWhile_append_of_pos fun c hc => hgap c (List.mem_reverse.1 hc), trimEnd]

/-- Only the blanks behind a character that is none are at the end. -/
theorem trimEnd_append_cons {c : Char} (hc : isBlank c = false) (cs ds : List Char) :
    trimEnd (cs ++ c :: ds) = cs ++ c :: trimEnd ds := by
  rw [trimEnd, List.reverse_append, List.reverse_cons, List.append_assoc, List.dropWhile_append]
  split
  · rename_i hnil
    have hds : trimEnd ds = [] := by simpa [trimEnd] using hnil
    simp [hc, hds]
  · simp [trimEnd]

theorem trim_blanks_append (hgap : Blanks gap) : trim (gap ++ cs) = trim cs := by
  rw [trim_eq, List.dropWhile_append_of_pos hgap, trim_eq]

theorem trim_append_blanks (hgap : Blanks gap) : trim (cs ++ gap) = trim cs := by
  rw [trim_eq, List.dropWhile_append]
  split
  · rename_i hnil
    have hdrop : gap.dropWhile isBlank = [] := by
      simpa using @List.dropWhile_append_of_pos _ isBlank gap [] hgap
    rw [trim_eq, List.isEmpty_iff.1 hnil, hdrop]
  · rw [trimEnd_append_blanks hgap, trim_eq]

theorem trim_eq_self {cs : List Char} (h : ∀ c ∈ cs, isBlank c = false) : trim cs = cs := by
  have hdrop : ∀ ds : List Char, (∀ c ∈ ds, isBlank c = false) → ds.dropWhile isBlank = ds := by
    intro ds hds
    cases ds with
    | nil => rfl
    | cons d ds => simp [hds d (List.mem_cons_self ..)]
  rw [trim, hdrop cs h, hdrop cs.reverse (by simpa using h), List.reverse_reverse]

/-- A number is written with digits and a sign. -/
theorem mem_of_readNat? {isDigit : Char → Bool} {base bound n : Nat}
    (h : readNat? isDigit base bound cs = some n) : ∀ c ∈ cs, c = '+' ∨ isDigit c := by
  unfold readNat? at h
  generalize hds : (if cs.head? = some '+' then cs.tail else cs) = ds at h
  dsimp only at h
  split at h
  · cases h
  · rename_i hdigits
    have hall : ∀ d ∈ ds, isDigit d := by
      simp only [Bool.or_eq_true, Bool.not_eq_true', not_or, Bool.not_eq_false] at hdigits
      exact List.all_eq_true.1 hdigits.2
    intro c hc
    split at hds
    · rename_i hplus
      obtain ⟨ds', rfl⟩ := List.head?_eq_some_iff.1 hplus
      subst hds
      exact (List.mem_cons.1 hc).imp_right (hall c)
    · exact .inr (hall c (hds ▸ hc))

end Text

namespace Ty

open Text (Blanks trimEnd)

/-! ## 2. Stars and blanks -/

/-- What a shape reads as, once its parts are read. -/
def ofShape? : Shape → Option Ty
  | .named t => some t
  | .slice element => (read? element).map sliceOf
  | .array size element => (read? element).map (arrayOf · size)
  | .map key value => (read? key).bind fun k => (read? value).map (mapOf k)
  | .tuple components => (components.mapM read?).map tupleOf

theorem read?_eq (cs : List Char) :
    read? cs = ((shape? (unwrapped cs)).bind ofShape?).map
      (·.addPointers (cs.takeWhile (· = '*')).length) := by
  rw [read?]
  split
  · rename_i h
    rw [h]
    rfl
  · rename_i s h
    have hs : (shape? (unwrapped cs)).bind ofShape? = ofShape? s := by rw [h, Option.bind_some]
    rw [hs]
    cases s with
    | tuple components =>
      have hattach : components.attach.mapM (fun part => read? part.1) = components.mapM read? := by
        rw [List.mapM_subtype (g := read?) fun _ _ => rfl, List.unattach_attach]
      simp only [hattach, ofShape?]
      exact Option.map_eq_bind.symm
    | named => rfl
    | slice | array | map => exact Option.map_eq_bind.symm

theorem addPointers_zero (t : Ty) : t.addPointers 0 = t := by
  cases t
  rfl

theorem addPointers_addPointers (t : Ty) (a b : Nat) :
    (t.addPointers a).addPointers b = t.addPointers (b + a) := by
  simp only [addPointers, Nat.add_assoc, Nat.add_comm b a]

/-- A star in front is a pointer. -/
theorem read?_stars (n : Nat) (cs : List Char) :
    read? (List.replicate n '*' ++ cs) = (read? cs).map (·.addPointers n) := by
  have hdrop : (List.replicate n '*' ++ cs).dropWhile (· = '*') = cs.dropWhile (· = '*') := by
    induction n with
    | zero => rfl
    | succ n ih => simp [List.replicate_succ]
  have htake : ((List.replicate n '*' ++ cs).takeWhile (· = '*')).length =
      n + (cs.takeWhile (· = '*')).length := by
    clear hdrop
    induction n with
    | zero => simp
    | succ n ih =>
      rw [List.replicate_succ, List.cons_append, List.takeWhile_cons_of_pos (by simp),
        List.length_cons, ih]
      omega
  rw [read?_eq, read?_eq cs, htake, unwrapped, hdrop, ← unwrapped, Option.map_map]
  congr 1
  funext t
  exact (addPointers_addPointers t _ n).symm

/-- Without a star in front the shape decides. -/
theorem read?_of_head {cs : List Char} (hstar : cs.head? ≠ some '*') :
    read? cs = (shape? (Text.trim cs)).bind ofShape? := by
  have hcut : cs.dropWhile (· = '*') = cs ∧ cs.takeWhile (· = '*') = [] := by
    cases cs with
    | nil => exact ⟨rfl, rfl⟩
    | cons c cs =>
      have hc : c ≠ '*' := by simpa using hstar
      simp [hc]
  rw [read?_eq, unwrapped, hcut.1, hcut.2]
  simp only [List.length_nil, addPointers_zero, Option.map_id']

/-- Names have no brackets in them, and neither blanks nor stars. -/
theorem isPlain_of_ofName? {name : String} {t : Ty} (h : ofName? name = some t) :
    ∀ c ∈ name.toList, isPlain c ∧ c ≠ '*' := by
  suffices hall : name.toList.all fun c => isPlain c ∧ c ≠ '*' by
    simpa using hall
  unfold ofName? at h
  split at h
  any_goals decide
  obtain ⟨kind, hkind, -⟩ := Option.map_eq_some_iff.1 h
  unfold NumberKind.ofName? at hkind
  split at hkind
  any_goals decide
  have hname : kind.name = name := by simpa using List.find?_some hkind
  rw [← hname]
  cases kind <;> decide

/-- Nothing that begins with a star has a shape. -/
theorem shape?_star (cs : List Char) : shape? ('*' :: cs) = none := by
  have hname : ofName? (String.ofList ('*' :: cs)) = none := by
    rw [Option.eq_none_iff_forall_ne_some]
    intro t ht
    exact (isPlain_of_ofName? ht '*' (by simp)).2 rfl
  show (ofName? (String.ofList ('*' :: cs))).map Shape.named = none
  rw [hname, Option.map_none]

variable {cs gap : List Char}

theorem isBlank_star : Text.isBlank '*' = false := by decide

theorem ne_star_of_isBlank {c : Char} (h : Text.isBlank c) : c ≠ '*' := by
  rintro rfl
  rw [isBlank_star] at h
  cases h

/-- Blanks behind a spelling do not matter. -/
theorem read?_append_blanks (hgap : Blanks gap) : read? (cs ++ gap) = read? cs := by
  have hhead : gap.dropWhile (· = '*') = gap ∧ gap.takeWhile (· = '*') = [] := by
    cases gap with
    | nil => exact ⟨rfl, rfl⟩
    | cons b gap =>
      have hb : b ≠ '*' := ne_star_of_isBlank (hgap b (List.mem_cons_self ..))
      simp [hb]
  have hdrop : (cs ++ gap).dropWhile (· = '*') = cs.dropWhile (· = '*') ++ gap := by
    rw [List.dropWhile_append]
    split
    · rename_i hnil
      rw [List.isEmpty_iff.1 hnil, hhead.1, List.nil_append]
    · rfl
  have htake : (cs ++ gap).takeWhile (· = '*') = cs.takeWhile (· = '*') := by
    rw [List.takeWhile_append, hhead.2, List.append_nil]
    split
    · rename_i hlength
      exact (List.takeWhile_prefix _).eq_of_length hlength |>.symm
    · rfl
  rw [read?_eq, read?_eq cs, htake, unwrapped, hdrop, Text.trim_append_blanks hgap, ← unwrapped]

/-- Blanks in front of a spelling do not matter, unless it begins with a star. -/
theorem read?_blanks_append (hgap : Blanks gap) :
    read? (gap ++ cs) = if gap ≠ [] ∧ cs.head? = some '*' then none else read? cs := by
  cases gap with
  | nil => simp
  | cons b gap =>
    have hb : b ≠ '*' := ne_star_of_isBlank (hgap b (List.mem_cons_self ..))
    rw [read?_of_head (by simpa using hb), Text.trim_blanks_append hgap]
    split
    · rename_i hstar
      obtain ⟨cs', rfl⟩ := List.head?_eq_some_iff.1 hstar.2
      have htrim : Text.trim ('*' :: cs') = '*' :: trimEnd cs' := by
        rw [Text.trim_eq, List.dropWhile_cons_of_neg (by simp [isBlank_star])]
        exact Text.trimEnd_append_cons isBlank_star [] cs'
      rw [htrim, shape?_star, Option.bind_none]
    · rename_i hstar
      exact (read?_of_head fun h => hstar ⟨List.cons_ne_nil _ _, h⟩).symm

/-! ## 3. Parts -/

theorem isPlain_of_isDigit {c : Char} (h : Text.isDigit c) : isPlain c := by
  have hall : ∀ d < 10, isPlain (Nat.digitChar d) := by decide
  obtain ⟨d, hd, rfl⟩ := Text.exists_digitChar h
  exact hall d hd

theorem closed_of_blanks {inside : Bool} (h : Blanks gap) : Closed inside gap :=
  .of_unmarked fun c hc => isMark_of_isBlank (h c hc)

/-- What stands between the brackets of an array has neither brackets nor separators. -/
theorem closed_of_arraySize? {text : List Char} {size : ArraySize}
    (h : arraySize? text = some size) {inside : Bool} : Closed inside text := by
  have hmark : ∀ c ∈ Text.trim text, isMark c = false := by
    unfold arraySize? at h
    dsimp only at h
    split at h
    · rename_i hdots
      intro c hc
      have hdot : c = '.' := by simpa [hdots] using hc
      rw [hdot]
      rfl
    · obtain ⟨n, hn, -⟩ := Option.map_eq_some_iff.1 h
      intro c hc
      rcases Text.mem_of_readNat? hn c hc with rfl | hdigit
      · rfl
      · exact (isPlain_iff.1 (isPlain_of_isDigit hdigit)).1
  obtain ⟨gap, gap', hgap, hgap', heq⟩ := Text.exists_trim text
  rw [heq]
  exact ((closed_of_blanks hgap).append (.of_unmarked hmark)).append (closed_of_blanks hgap')

theorem ne_nil_of_arraySize? {text : List Char} {size : ArraySize}
    (h : arraySize? text = some size) : text ≠ [] := by
  rintro rfl
  cases h

/-- How a spelling without stars in front is put together of its parts. -/
inductive Shaped : List Char → Shape → Prop
  | named {name : List Char} {t : Ty} (h : ofName? (String.ofList name) = some t) :
      Shaped name (.named t)
  | slice (element : List Char) : Shaped ('[' :: ']' :: element) (.slice element)
  | array {text : List Char} {size : ArraySize} (h : arraySize? text = some size)
      (element : List Char) : Shaped ('[' :: (text ++ ']' :: element)) (.array size element)
  | map (key value : List Char) :
      Shaped ('[' :: (key ++ ':' :: value ++ [']'])) (.map key value)
  | tuple {parts : List (List Char)} (h : parts ≠ []) :
      Shaped ('(' :: ([','].intercalate parts ++ [')'])) (.tuple parts)

/-- There are no other shapes. -/
theorem shaped_of_shape? {s : Shape} (h : shape? cs = some s) : Shaped cs s := by
  unfold shape? at h
  split at h
  · cases h
    exact .slice _
  · obtain ⟨⟨head, tail⟩, hclose, h⟩ := Option.bind_eq_some_iff.1 h
    rw [splitClose_eq hclose]
    dsimp only at h
    split at h
    · rename_i key value hfirst
      split at h
      · rename_i htail
        cases h
        rw [splitFirst_eq hfirst, List.isEmpty_iff.1 htail]
        exact .map key value
      · cases h
    · obtain ⟨size, hsize, rfl⟩ := Option.map_eq_some_iff.1 h
      exact .array hsize tail
  · obtain ⟨⟨head, tail⟩, hclose, h⟩ := Option.bind_eq_some_iff.1 h
    rw [splitClose_eq hclose]
    dsimp only at h
    split at h
    · rename_i htail
      cases h
      have htuple := Shaped.tuple (splitAll_ne_nil ',' 0 head)
      rwa [intercalate_splitAll, ← List.isEmpty_iff.1 htail] at htuple
    · cases h
  · obtain ⟨t, ht, rfl⟩ := Option.map_eq_some_iff.1 h
    exact .named ht

theorem shape?_bracket {inner : List Char} (h : inner.head? ≠ some ']') :
    shape? ('[' :: inner) = bracketShape? inner := by
  cases inner with
  | nil => rfl
  | cons c cs =>
    have hc : c ≠ ']' := by simpa using h
    simp [shape?, hc]

/-- Something with brackets around it begins with no closing one. -/
theorem head?_append_ne {text : List Char} (h : Closed true text) (hne : text ≠ [])
    (rest : List Char) : (text ++ rest).head? ≠ some ']' := by
  rw [List.head?_append, Option.or_of_isSome (by simpa using hne)]
  exact h.head_ne

theorem shape?_array {text : List Char} {size : ArraySize} (h : arraySize? text = some size)
    (element : List Char) :
    shape? ('[' :: (text ++ ']' :: element)) = some (.array size element) := by
  rw [shape?_bracket (head?_append_ne (closed_of_arraySize? h) (ne_nil_of_arraySize? h) _)]
  simp only [bracketShape?, splitClose_append (.inl ⟨rfl, rfl⟩) (closed_of_arraySize? h),
    Option.bind_eq_bind, Option.bind_some, splitFirst_eq_none (.inl rfl) (closed_of_arraySize? h),
    h, Option.map_some]

theorem shape?_map {key value : List Char} (hk : Closed false key) (hv : Closed false value) :
    shape? ('[' :: (key ++ ':' :: value ++ [']'])) = some (.map key value) := by
  have hinner : Closed true (key ++ ':' :: value) :=
    hk.toInside.append (.separator (.inl rfl) hv.toInside)
  rw [shape?_bracket (head?_append_ne hinner (by simp) _)]
  simp only [bracketShape?, splitClose_append (.inl ⟨rfl, rfl⟩) hinner, Option.bind_eq_bind,
    Option.bind_some, splitFirst_append (.inl rfl) hk, List.isEmpty_nil, if_true]

theorem shape?_tuple {parts : List (List Char)} (hne : parts ≠ [])
    (h : ∀ p ∈ parts, Closed false p) :
    shape? ('(' :: ([','].intercalate parts ++ [')'])) = some (.tuple parts) := by
  have hinner : Closed true ([','].intercalate parts) := .intercalate (.inr rfl) h
  have hsplit : splitAll ',' 0 ([','].intercalate parts) = parts := by
    cases parts with
    | nil => exact absurd rfl hne
    | cons part parts => exact splitAll_intercalate (.inr rfl) h
  simp only [shape?, tupleShape?, splitClose_append (.inr ⟨rfl, rfl⟩) hinner, Option.bind_eq_bind,
    Option.bind_some, List.isEmpty_nil, if_true, hsplit]

theorem shape?_named {name : List Char} {t : Ty} (h : ofName? (String.ofList name) = some t) :
    shape? name = some (.named t) := by
  have hhead {c : Char} (hc : isPlain c = false) (cs : List Char) : name ≠ c :: cs := by
    rintro rfl
    have hplain := (isPlain_of_ofName? h c (by simp)).1
    rw [hc] at hplain
    cases hplain
  unfold shape?
  split
  · exact absurd rfl (hhead (by decide) _)
  · exact absurd rfl (hhead (by decide) _)
  · exact absurd rfl (hhead (by decide) _)
  · rw [h, Option.map_some]

/-- Behind the last bracket only the blanks at the end are stripped. -/
theorem read?_brackets {o c : Char} (hoc : Closes o c) (inner rest : List Char) :
    read? (o :: (inner ++ c :: rest)) =
      (shape? (o :: (inner ++ c :: trimEnd rest))).bind ofShape? := by
  have hstar : o ≠ '*' := by rcases hoc with ⟨rfl, -⟩ | ⟨rfl, -⟩ <;> decide
  rw [read?_of_head (by simpa using hstar), Text.trim_eq,
    List.dropWhile_cons_of_neg (by simp [hoc.not_blank.1]), ← List.cons_append,
    Text.trimEnd_append_cons hoc.not_blank.2, List.cons_append]

theorem read?_trimEnd (cs : List Char) : read? (trimEnd cs) = read? cs := by
  obtain ⟨gap, hgap, heq⟩ := Text.exists_trimEnd cs
  have happend := @read?_append_blanks (trimEnd cs) gap hgap
  rwa [← heq, eq_comm] at happend

/-- A spelling is read part by part. -/
theorem read?_of_shaped {s : Shape} (h : Shaped cs s) (hparts : ∀ p ∈ s.parts, Closed false p) :
    read? cs = ofShape? s := by
  cases h with
  | named h =>
    have hplain := isPlain_of_ofName? h
    rw [String.toList_ofList] at hplain
    have hstar : cs.head? ≠ some '*' := fun hc => (hplain '*' (List.mem_of_mem_head? hc)).2 rfl
    rw [read?_of_head hstar, Text.trim_eq_self fun c hc => (isPlain_iff.1 (hplain c hc).1).2,
      shape?_named h, Option.bind_some]
  | slice element =>
    refine (read?_brackets (.inl ⟨rfl, rfl⟩) [] element).trans ?_
    show (read? (trimEnd element)).map sliceOf = _
    rw [read?_trimEnd, ofShape?]
  | array h element =>
    rw [read?_brackets (.inl ⟨rfl, rfl⟩), shape?_array h, Option.bind_some, ofShape?,
      read?_trimEnd, ofShape?]
  | map key value =>
    simp only [Shape.parts, List.forall_mem_cons] at hparts
    rw [read?_brackets (.inl ⟨rfl, rfl⟩), show trimEnd [] = [] from rfl,
      shape?_map hparts.1 hparts.2.1, Option.bind_some]
  | tuple hne =>
    rw [read?_brackets (.inr ⟨rfl, rfl⟩), show trimEnd [] = [] from rfl, shape?_tuple hne hparts,
      Option.bind_some]

/-- A text with its stars and blanks, and what is left when they are stripped. -/
theorem exists_unwrapped (cs : List Char) : ∃ stars gap gap', (∀ c ∈ stars, c = '*') ∧
    Blanks gap ∧ Blanks gap' ∧ cs = stars ++ (gap ++ unwrapped cs ++ gap') := by
  obtain ⟨gap, gap', hgap, hgap', heq⟩ := Text.exists_trim (cs.dropWhile (· = '*'))
  refine ⟨cs.takeWhile (· = '*'), gap, gap', fun c hc => ?_, hgap, hgap', ?_⟩
  · simpa using List.all_eq_true.1 List.all_takeWhile c hc
  · rw [unwrapped, ← heq, List.takeWhile_append_dropWhile]

theorem closed_of_shaped {s : Shape} (h : Shaped cs s) (hparts : ∀ p ∈ s.parts, Closed false p) :
    Closed false cs := by
  cases h with
  | named h =>
    have hplain := isPlain_of_ofName? h
    rw [String.toList_ofList] at hplain
    exact .of_unmarked fun c hc => (isPlain_iff.1 (hplain c hc).1).1
  | slice element => exact .group (.inl ⟨rfl, rfl⟩) .nil (hparts element (by simp [Shape.parts]))
  | array h element =>
    exact .group (.inl ⟨rfl, rfl⟩) (closed_of_arraySize? h)
      (hparts element (by simp [Shape.parts]))
  | map key value =>
    simp only [Shape.parts, List.forall_mem_cons] at hparts
    exact .group (.inl ⟨rfl, rfl⟩)
      (hparts.1.toInside.append (.separator (.inl rfl) hparts.2.1.toInside)) .nil
  | tuple => exact .group (.inr ⟨rfl, rfl⟩) (.intercalate (.inr rfl) hparts) .nil

theorem isSome_of_mapM {α β : Type} {f : α → Option β} {as : List α} (h : (as.mapM f).isSome) :
    ∀ a ∈ as, (f a).isSome := by
  induction as with
  | nil => simp
  | cons a as ih =>
    obtain ⟨bs, hbs⟩ := Option.isSome_iff_exists.1 h
    rw [List.mapM_cons] at hbs
    obtain ⟨b, hb, hbs⟩ := Option.bind_eq_some_iff.1 hbs
    obtain ⟨bs', hbs', -⟩ := Option.bind_eq_some_iff.1 hbs
    rw [List.forall_mem_cons]
    exact ⟨by rw [hb]; rfl, ih (by rw [hbs']; rfl)⟩

/-- What can be read has parts that can be read. -/
theorem isSome_read?_part {s : Shape} (h : (ofShape? s).isSome) :
    ∀ p ∈ s.parts, (read? p).isSome := by
  cases s with
  | named => simp [Shape.parts]
  | slice | array => simpa [Shape.parts, ofShape?] using h
  | map key value =>
    obtain ⟨t, ht⟩ := Option.isSome_iff_exists.1 h
    obtain ⟨k, hk, ht⟩ := Option.bind_eq_some_iff.1 ht
    obtain ⟨v, hv, -⟩ := Option.map_eq_some_iff.1 ht
    simp [Shape.parts, hk, hv]
  | tuple =>
    rw [ofShape?, Option.isSome_map] at h
    exact isSome_of_mapM h

/-- The brackets close in everything that can be read. -/
theorem closed_of_read? {cs : List Char} (h : (read? cs).isSome) : Closed false cs := by
  rw [read?_eq, Option.isSome_map] at h
  obtain ⟨t, ht⟩ := Option.isSome_iff_exists.1 h
  obtain ⟨s, hs, hof⟩ := Option.bind_eq_some_iff.1 ht
  have hparts : ∀ p ∈ s.parts, Closed false p := fun p hp =>
    have smaller : p.length < cs.length :=
      Nat.lt_of_lt_of_le (shape?_length hs hp) (length_unwrapped_le cs)
    closed_of_read? (isSome_read?_part (by rw [hof]; rfl) p hp)
  obtain ⟨stars, gap, gap', hstars, hgap, hgap', heq⟩ := exists_unwrapped cs
  have hstars : Closed false stars := .of_unmarked fun c hc => hstars c hc ▸ rfl
  have hbare := closed_of_shaped (shaped_of_shape? hs) hparts
  rw [heq]
  exact hstars.append (((closed_of_blanks hgap).append hbare).append (closed_of_blanks hgap'))
termination_by cs.length

end Ty

end ExprCheck
