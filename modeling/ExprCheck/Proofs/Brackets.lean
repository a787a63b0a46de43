/-
ExprCheck.Proofs.Brackets — texts whose brackets close, and what is found around them.

A spelling is cut at brackets and separators by counting depth. `Closed` is the form of text
that such counting passes over: every bracket in it closes, and separators stand inside
brackets only, unless the text is itself to stand inside some. Each of `splitClose`,
`splitFirst` and `splitAll` goes on after a closed text as if it had not been there, at the
depth at which it came to it. The texts that spellings are made of when they are written are
`Balanced`: they are closed and have no blanks in them.
-/
import ExprCheck.Ty.Spelling

namespace ExprCheck.Ty

/-! ## 1. Closed texts -/

/-- A bracket or a separator. -/
def isMark (c : Char) : Bool := ['[', ']', '(', ')', ':', ','].contains c

/-- A character that neither opens nor closes nor separates anything, and no blank. -/
def isPlain (c : Char) : Bool :=
  !(['[', ']', '(', ')', ':', ','].contains c) && !Text.isBlank c

/-- The second bracket closes the first. -/
def Closes (o c : Char) : Prop := (o = '[' ∧ c = ']') ∨ (o = '(' ∧ c = ')')

/-- The brackets in the text close. Only `inside` brackets are there separators. -/
inductive Closed : Bool → List Char → Prop
  | nil {inside} : Closed inside []
  | plain {inside c cs} (hc : isMark c = false) (h : Closed inside cs) : Closed inside (c :: cs)
  | separator {c cs} (hc : c = ':' ∨ c = ',') (h : Closed true cs) : Closed true (c :: cs)
  | group {inside o c inner cs} (hoc : Closes o c) (hi : Closed true inner)
      (h : Closed inside cs) : Closed inside (o :: (inner ++ c :: cs))

/-- The brackets in the text close, and it has no blanks. Only `inside` brackets are there
separators. -/
inductive Balanced : Bool → List Char → Prop
  | nil {inside} : Balanced inside []
  | plain {inside c cs} (hc : isPlain c) (h : Balanced inside cs) : Balanced inside (c :: cs)
  | separator {c cs} (hc : c = ':' ∨ c = ',') (h : Balanced true cs) : Balanced true (c :: cs)
  | group {inside o c inner cs} (hoc : Closes o c) (hi : Balanced true inner)
      (h : Balanced inside cs) : Balanced inside (o :: (inner ++ c :: cs))

theorem isPlain_iff {c : Char} : isPlain c ↔ isMark c = false ∧ Text.isBlank c = false := by
  simp [isPlain, isMark]

theorem ne_of_isMark {c : Char} (h : isMark c = false) :
    c ≠ '[' ∧ c ≠ ']' ∧ c ≠ '(' ∧ c ≠ ')' ∧ c ≠ ':' ∧ c ≠ ',' := by
  simpa [isMark] using h

/-- No blank is a mark. -/
theorem isMark_of_isBlank {c : Char} (h : Text.isBlank c) : isMark c = false := by
  have hall : ['[', ']', '(', ')', ':', ','].all fun m => !Text.isBlank m := by decide
  rw [isMark, List.contains_eq_mem, decide_eq_false_iff_not]
  intro hm
  simpa [h] using List.all_eq_true.1 hall c hm

theorem Closes.not_blank {o c : Char} (h : Closes o c) :
    Text.isBlank o = false ∧ Text.isBlank c = false := by
  rcases h with ⟨rfl, rfl⟩ | ⟨rfl, rfl⟩ <;> decide

namespace Closed

variable {inside : Bool} {cs ds : List Char}

theorem append (h : Closed inside cs) (h' : Closed inside ds) : Closed inside (cs ++ ds) := by
  induction h with
  | nil => exact h'
  | plain hc _ ih => exact .plain hc (ih h')
  | separator hc _ ih => exact .separator hc (ih h')
  | group hoc hi _ _ ih =>
    rw [List.cons_append, List.append_assoc, List.cons_append]
    exact .group hoc hi (ih h')

/-- What may stand anywhere may stand inside brackets. -/
theorem toInside (h : Closed inside cs) : Closed true cs := by
  induction h with
  | nil => exact .nil
  | plain hc _ ih => exact .plain hc ih
  | separator hc _ ih => exact .separator hc ih
  | group hoc hi _ _ ih => exact .group hoc hi ih

theorem of_unmarked (h : ∀ c ∈ cs, isMark c = false) : Closed inside cs := by
  induction cs with
  | nil => exact .nil
  | cons c cs ih =>
    exact .plain (h c (List.mem_cons_self ..)) (ih fun d hd => h d (List.mem_cons_of_mem _ hd))

theorem flatMap {parts : List (List Char)} {f : List Char → List Char}
    (h : ∀ p ∈ parts, Closed inside (f p)) : Closed inside (parts.flatMap f) := by
  induction parts with
  | nil => exact .nil
  | cons part parts ih =>
    rw [List.forall_mem_cons] at h
    exact h.1.append (ih h.2)

/-- A closed text does not start with a closing bracket. -/
theorem head_ne (h : Closed inside cs) : cs.head? ≠ some ']' := by
  cases h with
  | nil => simp
  | group hoc => rcases hoc with ⟨rfl, rfl⟩ | ⟨rfl, rfl⟩ <;> simp
  | plain hc => simpa using (ne_of_isMark hc).2.1
  | separator hc => rcases hc with rfl | rfl <;> simp

end Closed

namespace Balanced

variable {inside : Bool} {cs ds : List Char}

theorem closed (h : Balanced inside cs) : Closed inside cs := by
  induction h with
  | nil => exact .nil
  | plain hc _ ih => exact .plain (isPlain_iff.1 hc).1 ih
  | separator hc _ ih => exact .separator hc ih
  | group hoc _ _ ihi ih => exact .group hoc ihi ih

/-- No blanks stand in a balanced text. -/
theorem not_blank (h : Balanced inside cs) : ∀ c ∈ cs, Text.isBlank c = false := by
  induction h with
  | nil => simp
  | plain hc _ ih => simpa [(isPlain_iff.1 hc).2] using ih
  | separator hc _ ih =>
    have hblank : Text.isBlank ':' = false ∧ Text.isBlank ',' = false := by decide
    rcases hc with rfl | rfl
    · simpa [hblank.1] using ih
    · simpa [hblank.2] using ih
  | group hoc _ _ ihi ih =>
    have hblank := hoc.not_blank
    simp only [List.mem_cons, List.mem_append]
    rintro x (rfl | hx | rfl | hx)
    · exact hblank.1
    · exact ihi x hx
    · exact hblank.2
    · exact ih x hx

theorem of_closed (h : Closed inside cs) (hblank : ∀ c ∈ cs, Text.isBlank c = false) :
    Balanced inside cs := by
  induction h with
  | nil => exact .nil
  | plain hc _ ih =>
    rw [List.forall_mem_cons] at hblank
    exact .plain (isPlain_iff.2 ⟨hc, hblank.1⟩) (ih hblank.2)
  | separator hc _ ih =>
    rw [List.forall_mem_cons] at hblank
    exact .separator hc (ih hblank.2)
  | group hoc _ _ ihi ih =>
    simp only [List.forall_mem_cons, List.forall_mem_append] at hblank
    exact .group hoc (ihi hblank.2.1) (ih hblank.2.2.2)

theorem append (h : Balanced inside cs) (h' : Balanced inside ds) : Balanced inside (cs ++ ds) :=
  of_closed (h.closed.append h'.closed) (List.forall_mem_append.2 ⟨h.not_blank, h'.not_blank⟩)

/-- What may stand anywhere may stand inside brackets. -/
theorem toInside (h : Balanced inside cs) : Balanced true cs :=
  of_closed h.closed.toInside h.not_blank

theorem of_plain (h : cs.all isPlain) : Balanced inside cs := by
  induction cs with
  | nil => exact .nil
  | cons c cs ih =>
    rw [List.all_cons, Bool.and_eq_true] at h
    exact .plain h.1 (ih h.2)

end Balanced

/-! ## 2. Passing over a closed text -/

/-- A result with the text before it put back. -/
abbrev putBack (cs : List Char) (r : Option (List Char × List Char)) :
    Option (List Char × List Char) :=
  cs.foldr (fun c => Option.map (consFirst c)) r

theorem putBack_some (cs a b : List Char) : putBack cs (some (a, b)) = some (cs ++ a, b) := by
  induction cs with
  | nil => rfl
  | cons c cs ih => simpa [putBack, consFirst] using congrArg (Option.map (consFirst c)) ih

theorem putBack_none (cs : List Char) : putBack cs none = none := by
  induction cs with
  | nil => rfl
  | cons c cs ih => simpa [putBack] using congrArg (Option.map (consFirst c)) ih

theorem foldr_consHead (cs p : List Char) (ps : List (List Char)) :
    cs.foldr consHead (p :: ps) = (cs ++ p) :: ps := by
  induction cs with
  | nil => rfl
  | cons c cs ih => simp [ih, consHead]

/-- The bracket that closes an earlier one is not in a closed text. -/
theorem splitClose_closed {o c : Char} (hoc : Closes o c) {inside : Bool} {cs : List Char}
    (h : Closed inside cs) (depth : Nat) (rest : List Char) :
    splitClose o c depth (cs ++ rest) = putBack cs (splitClose o c depth rest) := by
  induction h generalizing depth rest with
  | nil => rfl
  | plain hx _ ih =>
    have hne := ne_of_isMark hx
    rcases hoc with ⟨rfl, rfl⟩ | ⟨rfl, rfl⟩ <;> simp [splitClose, hne, ih]
  | separator hx _ ih =>
    rcases hoc with ⟨rfl, rfl⟩ | ⟨rfl, rfl⟩ <;> rcases hx with rfl | rfl <;>
      simp [splitClose, ih]
  | group hoc' _ _ ihi ih =>
    -- brackets of the other sort do not count, and those of this sort come in pairs
    rcases hoc with ⟨rfl, rfl⟩ | ⟨rfl, rfl⟩ <;> rcases hoc' with ⟨rfl, rfl⟩ | ⟨rfl, rfl⟩ <;>
      simp [splitClose, ihi, ih]

theorem not_cutsAt_of_ne {separator : Char} {depth : Int} {c : Char}
    (h : c ≠ separator ∨ depth ≠ 0) : ¬cutsAt separator depth c := by
  rintro ⟨rfl, rfl, -⟩
  simp at h

/-- What works through a text and cuts it at separators does nothing but take up the
characters of a closed one. -/
theorem pass_closed {β : Type} {separator : Char} (hs : separator = ':' ∨ separator = ',')
    {f : Int → List Char → β} {g : Char → β → β}
    (hf : ∀ depth c cs, ¬cutsAt separator depth c →
      f depth (c :: cs) = g c (f (depthAfter depth c) cs))
    {inside : Bool} {cs : List Char} (h : Closed inside cs) {depth : Int} (hd : 0 ≤ depth)
    (hin : inside = true → depth ≠ 0) (rest : List Char) :
    f depth (cs ++ rest) = cs.foldr g (f depth rest) := by
  induction h generalizing depth rest with
  | nil => rfl
  | @plain _ c _ hc _ ih =>
    obtain ⟨h₁, h₂, h₃, h₄, h₅, h₆⟩ := ne_of_isMark hc
    have hdepth : depthAfter depth c = depth := by simp [depthAfter, h₁, h₂, h₃, h₄]
    have hcut : ¬cutsAt separator depth c :=
      not_cutsAt_of_ne (.inl (by rcases hs with rfl | rfl <;> assumption))
    rw [List.cons_append, hf _ _ _ hcut, hdepth, ih hd hin, List.foldr_cons]
  | @separator c _ hc _ ih =>
    have hdepth : depthAfter depth c = depth := by
      rcases hc with rfl | rfl <;> simp [depthAfter]
    rw [List.cons_append, hf _ _ _ (not_cutsAt_of_ne (.inr (hin rfl))), hdepth, ih hd hin,
      List.foldr_cons]
  | @group _ o c inner cs hoc _ _ ihi ih =>
    have hopen : depthAfter depth o = depth + 1 := by
      rcases hoc with ⟨rfl, -⟩ | ⟨rfl, -⟩ <;> simp [depthAfter]
    have hclose : depthAfter (depth + 1) c = depth := by
      rcases hoc with ⟨-, rfl⟩ | ⟨-, rfl⟩ <;> simp [depthAfter]
    have hocut : ¬cutsAt separator depth o := by
      rintro ⟨-, -, h⟩
      omega
    -- one deeper for what is inside, and back again for what comes after
    rw [List.cons_append, List.append_assoc, List.cons_append, hf _ _ _ hocut, hopen,
      ihi (by omega) (fun _ => by omega), hf _ _ _ (not_cutsAt_of_ne (.inr (by omega))), hclose,
      ih hd hin, List.foldr_cons, List.foldr_append, List.foldr_cons]

/-- A separator outside brackets is not in a closed text. -/
theorem splitFirst_closed {separator : Char} (hs : separator = ':' ∨ separator = ',')
    {cs : List Char} (h : Closed false cs) (rest : List Char) :
    splitFirst separator 0 (cs ++ rest) = putBack cs (splitFirst separator 0 rest) := by
  refine pass_closed hs (fun depth c cs hcut => ?_) h (Int.le_refl 0) (by simp) rest
  rw [splitFirst, if_neg hcut]

theorem splitAll_closed {separator : Char} (hs : separator = ':' ∨ separator = ',')
    {cs : List Char} (h : Closed false cs) (rest : List Char) :
    splitAll separator 0 (cs ++ rest) = cs.foldr consHead (splitAll separator 0 rest) := by
  refine pass_closed hs (fun depth c cs hcut => ?_) h (Int.le_refl 0) (by simp) rest
  rw [splitAll, if_neg hcut]

/-! ## 3. Closed texts put together -/

/-- A closed text up to its closing bracket. -/
theorem splitClose_append {o c : Char} (hoc : Closes o c) {cs : List Char}
    (h : Closed true cs) (rest : List Char) :
    splitClose o c 0 (cs ++ c :: rest) = some (cs, rest) := by
  have hne : c ≠ o := by rcases hoc with ⟨rfl, rfl⟩ | ⟨rfl, rfl⟩ <;> decide
  rw [splitClose_closed hoc h, splitClose, if_neg hne, if_pos rfl, putBack_some,
    List.append_nil]

theorem cutsAt_zero {separator : Char} (hs : separator = ':' ∨ separator = ',') :
    cutsAt separator 0 separator := by
  rcases hs with rfl | rfl <;> decide

theorem splitFirst_append {separator : Char} (hs : separator = ':' ∨ separator = ',')
    {cs : List Char} (h : Closed false cs) (rest : List Char) :
    splitFirst separator 0 (cs ++ separator :: rest) = some (cs, rest) := by
  rw [splitFirst_closed hs h, splitFirst, if_pos (cutsAt_zero hs), putBack_some,
    List.append_nil]

theorem splitFirst_eq_none {separator : Char} (hs : separator = ':' ∨ separator = ',')
    {cs : List Char} (h : Closed false cs) : splitFirst separator 0 cs = none := by
  have := splitFirst_closed hs h []
  rwa [List.append_nil, splitFirst, putBack_none] at this

theorem intercalate_cons_cons (separator : Char) (part next : List Char)
    (parts : List (List Char)) :
    [separator].intercalate (part :: next :: parts) =
      part ++ separator :: [separator].intercalate (next :: parts) := by
  simp [List.intercalate]

theorem intercalate_cons (separator : Char) (part : List Char) (parts : List (List Char)) :
    [separator].intercalate (part :: parts) = part ++ parts.flatMap (separator :: ·) := by
  induction parts generalizing part with
  | nil => simp [List.intercalate]
  | cons next parts ih => rw [intercalate_cons_cons, ih, List.flatMap_cons, List.cons_append]

theorem Closed.intercalate {separator : Char} (hs : separator = ':' ∨ separator = ',')
    {parts : List (List Char)} (h : ∀ p ∈ parts, Closed false p) :
    Closed true ([separator].intercalate parts) := by
  cases parts with
  | nil => exact .nil
  | cons part parts =>
    rw [List.forall_mem_cons] at h
    rw [intercalate_cons]
    exact h.1.toInside.append (.flatMap fun p hp => .separator hs (h.2 p hp).toInside)

theorem Balanced.intercalate {parts : List (List Char)} (h : ∀ p ∈ parts, Balanced false p) :
    Balanced true ([','].intercalate parts) := by
  refine of_closed (.intercalate (.inr rfl) fun p hp => (h p hp).closed) ?_
  have hcomma : Text.isBlank ',' = false := by decide
  cases parts with
  | nil => simp
  | cons part parts =>
    rw [List.forall_mem_cons] at h
    rw [intercalate_cons]
    simp only [List.forall_mem_append, List.forall_mem_flatMap, List.forall_mem_cons]
    exact ⟨h.1.not_blank, fun p hp => ⟨hcomma, (h.2 p hp).not_blank⟩⟩

/-- Texts that were joined by separators are found again. -/
theorem splitAll_intercalate {separator : Char} (hs : separator = ':' ∨ separator = ',')
    {part : List Char} {parts : List (List Char)} (h : ∀ p ∈ part :: parts, Closed false p) :
    splitAll separator 0 ([separator].intercalate (part :: parts)) = part :: parts := by
  induction parts generalizing part with
  | nil =>
    have hall := splitAll_closed hs (h part (List.mem_singleton_self _)) []
    rw [List.append_nil, splitAll, foldr_consHead, List.append_nil] at hall
    simpa [List.intercalate] using hall
  | cons next parts ih =>
    rw [intercalate_cons_cons, splitAll_closed hs (h part (List.mem_cons_self ..)), splitAll,
      if_pos (cutsAt_zero hs), ih fun p hp => h p (List.mem_cons_of_mem _ hp), foldr_consHead,
      List.append_nil]

theorem intercalate_cons_ne_nil (separator : Char) {part : List Char} (h : part ≠ [])
    (parts : List (List Char)) : [separator].intercalate (part :: parts) ≠ [] := by
  cases parts with
  | nil => simpa [List.intercalate] using h
  | cons next parts =>
    rw [intercalate_cons_cons]
    simp

/-- Texts of which none is empty can be told from how they are joined, even how many there
are: only of no texts at all is the joined text empty. -/
theorem intercalate_inj {separator : Char} (hs : separator = ':' ∨ separator = ',')
    {as bs : List (List Char)} (ha : ∀ p ∈ as, Closed false p ∧ p ≠ [])
    (hb : ∀ p ∈ bs, Closed false p ∧ p ≠ [])
    (h : [separator].intercalate as = [separator].intercalate bs) : as = bs := by
  cases as with
  | nil =>
    cases bs with
    | nil => rfl
    | cons b bs =>
      have hne := (hb b (List.mem_cons_self ..)).2
      exact absurd h.symm (intercalate_cons_ne_nil separator hne bs)
  | cons a as =>
    cases bs with
    | nil =>
      have hne := (ha a (List.mem_cons_self ..)).2
      exact absurd h (intercalate_cons_ne_nil separator hne as)
    | cons b bs =>
      have hsplit := congrArg (splitAll separator 0) h
      rwa [splitAll_intercalate hs fun p hp => (ha p hp).1,
        splitAll_intercalate hs fun p hp => (hb p hp).1] at hsplit

/-! ## 4. Texts that were cut, put together again -/

theorem splitClose_eq {o c : Char} {depth : Nat} {cs a b : List Char}
    (h : splitClose o c depth cs = some (a, b)) : cs = a ++ c :: b := by
  fun_induction splitClose o c depth cs generalizing a with
  | case1 => cases h
  | case3 =>
    obtain ⟨rfl, rfl⟩ := by simpa using h
    simp_all
  | _ =>
    rename_i ih
    obtain ⟨⟨a', b'⟩, hab, he⟩ := Option.map_eq_some_iff.1 h
    obtain ⟨rfl, rfl⟩ := Prod.mk.inj he
    rw [List.cons_append, ← ih hab]

theorem splitFirst_eq {separator : Char} {depth : Int} {cs a b : List Char}
    (h : splitFirst separator depth cs = some (a, b)) : cs = a ++ separator :: b := by
  fun_induction splitFirst separator depth cs generalizing a with
  | case1 => cases h
  | case2 _ _ _ hcut =>
    obtain ⟨rfl, rfl⟩ := by simpa using h
    rw [hcut.1, List.nil_append]
  | case3 _ _ _ _ ih =>
    obtain ⟨⟨a', b'⟩, hab, he⟩ := Option.map_eq_some_iff.1 h
    obtain ⟨rfl, rfl⟩ := Prod.mk.inj he
    rw [List.cons_append, ← ih hab]

theorem splitAll_ne_nil (separator : Char) (depth : Int) (cs : List Char) :
    splitAll separator depth cs ≠ [] := by
  cases cs with
  | nil => simp [splitAll]
  | cons c cs =>
    rw [splitAll]
    split
    · simp
    · cases splitAll separator (depthAfter depth c) cs <;> simp [consHead]

theorem intercalate_splitAll (separator : Char) (depth : Int) (cs : List Char) :
    [separator].intercalate (splitAll separator depth cs) = cs := by
  fun_induction splitAll separator depth cs with
  | case1 => simp [List.intercalate]
  | case2 depth c cs hcut ih =>
    obtain ⟨part, parts, hparts⟩ := List.exists_cons_of_ne_nil (splitAll_ne_nil separator depth cs)
    rw [hparts] at ih ⊢
    rw [intercalate_cons_cons, ih, List.nil_append, hcut.1]
  | case3 depth c cs _ ih =>
    obtain ⟨part, parts, hparts⟩ :=
      List.exists_cons_of_ne_nil (splitAll_ne_nil separator (depthAfter depth c) cs)
    rw [hparts, intercalate_cons] at ih
    rw [hparts, consHead, intercalate_cons, List.cons_append, ih]

end ExprCheck.Ty
