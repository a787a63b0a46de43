/-
ExprCheck.Proofs.Quoted — a constant text is shown as a string literal.

A text is shown between quotes, with a backslash in front of what would end the literal or
cannot be told apart by eye. `StandsFor` says of a part of the inside of a literal that it
is scanned as a part of it and which text it stands for, whatever comes after it. Parts of
which that holds can be put together, so it has to be shown for one character at a time
(`standsFor_escapeChar`).

A character with a short escape comes back as itself. There is no escape by code point
among those that literals have, so a character that is shown by its code point comes back
as that escape, backslash and all. This is the only thing that is lost.
-/
import ExprCheck.Number.Constant
import ExprCheck.Proofs.Digits
import ExprCheck.Proofs.Tiling

namespace ExprCheck

open Text (isHexDigit ofDigits shortEscape needsCodePoint escapeChar escape)

/-! ## 1. How a character is shown -/

namespace Text

/-- The character is shown as its code point, in hexadecimal digits between braces. -/
def ShownByCodePoint (c : Char) : Prop :=
  ∃ digits, digits ≠ [] ∧ (∀ d ∈ digits, isHexDigit d) ∧ ofDigits 16 digits = c.toNat ∧
    escapeChar c = ['\\', 'u', '\x7b'] ++ digits ++ ['\x7d']

theorem escapeChar_short {c e : Char} (h : shortEscape c = some e) : escapeChar c = ['\\', e] := by
  simp [escapeChar, h]

theorem escapeChar_codePoint {c : Char} (h : shortEscape c = none) (hcode : needsCodePoint c) :
    escapeChar c = ['\\', 'u', '\x7b'] ++ Nat.toDigits 16 c.toNat ++ ['\x7d'] := by
  simp [escapeChar, h, hcode]

theorem escapeChar_plain {c : Char} (h : shortEscape c = none) (hcode : ¬needsCodePoint c) :
    escapeChar c = [c] := by
  simp [escapeChar, h, hcode]

/-- None of the short escapes begins like a code point. -/
theorem shownByCodePoint_iff {c : Char} :
    ShownByCodePoint c ↔ shortEscape c = none ∧ needsCodePoint c := by
  constructor
  · rintro ⟨digits, -, -, -, h⟩
    cases hshort : shortEscape c with
    | some e =>
      rw [escapeChar_short hshort] at h
      simp at h
    | none =>
      by_cases hcode : needsCodePoint c
      · exact ⟨rfl, hcode⟩
      · rw [escapeChar_plain hshort hcode] at h
        simp at h
  · rintro ⟨hshort, hcode⟩
    exact ⟨_, Nat.toDigits_ne_nil, isHexDigit_toDigits (by decide) (by decide) _,
      ofDigits_toDigits (by decide) (by decide) _, escapeChar_codePoint hshort hcode⟩

instance : DecidablePred ShownByCodePoint := fun _ => decidable_of_iff _ shownByCodePoint_iff.symm

end Text

open Text (ShownByCodePoint escapeChar_short escapeChar_codePoint escapeChar_plain
  shownByCodePoint_iff)

namespace Token

/-! ## 2. Parts of a literal -/

/-- Inside a string literal the part stands for the text. -/
structure StandsFor (part text : List Char) : Prop where
  scanned : ∀ cs, scanString (part ++ cs) = (scanString cs).map fun p => (part ++ p.1, p.2)
  unescaped : ∀ cs, unescape (part ++ cs) = text ++ unescape cs

namespace StandsFor

theorem nil : StandsFor [] [] where
  scanned cs := by simp
  unescaped cs := rfl

theorem append {part part' text text' : List Char} (h : StandsFor part text)
    (h' : StandsFor part' text') : StandsFor (part ++ part') (text ++ text') where
  scanned cs := by
    rw [List.append_assoc, h.scanned, h'.scanned, Option.map_map]
    congr 1
    funext p
    simp
  unescaped cs := by rw [List.append_assoc, h.unescaped, h'.unescaped, List.append_assoc]

theorem flatMap {part text : Char → List Char} (h : ∀ c, StandsFor (part c) (text c))
    (cs : List Char) : StandsFor (cs.flatMap part) (cs.flatMap text) := by
  induction cs with
  | nil => exact nil
  | cons c cs ih => exact (h c).append ih

theorem unescape_cons {c : Char} (h : c ≠ '\\') (cs : List Char) :
    unescape (c :: cs) = c :: unescape cs := by
  cases cs with
  | nil => simp [unescape]
  | cons d cs => rw [unescape, if_pos h]

/-- A character that is neither a quote nor a backslash stands for itself. -/
theorem plain {c : Char} (hquote : c ≠ '"') (hbackslash : c ≠ '\\') : StandsFor [c] [c] where
  scanned := scanString_plain hquote hbackslash
  unescaped cs := unescape_cons hbackslash cs

theorem of_plain {cs : List Char} (h : ∀ c ∈ cs, c ≠ '"' ∧ c ≠ '\\') : StandsFor cs cs := by
  induction cs with
  | nil => exact nil
  | cons c cs ih =>
    obtain ⟨hc, hcs⟩ := List.forall_mem_cons.1 h
    exact (plain hc.1 hc.2).append (ih hcs)

/-- An escape that the language has stands for what it means. -/
theorem short {c d : Char} (h : escapeMeaning d = some c) : StandsFor ['\\', d] [c] where
  scanned := by
    apply scanString_backslash
    rintro rfl
    simp [escapeMeaning] at h
  unescaped cs := by
    have hx : d ≠ 'x' := by
      rintro rfl
      simp [escapeMeaning] at h
    simp [unescape, hx, h]

/-- An escape that it does not have stands for itself. -/
theorem unknown {d : Char} (h : escapeMeaning d = none) (hx : d ≠ 'x') (hn : d ≠ '\n') :
    StandsFor ['\\', d] ['\\', d] where
  scanned := scanString_backslash hn
  unescaped cs := by
    have hbackslash : d ≠ '\\' := by
      rintro rfl
      simp [escapeMeaning] at h
    simp [unescape, hx, h, unescape_cons hbackslash]

end StandsFor

/-! ## 3. Texts that are shown -/

/-- What a character that is shown comes back as. -/
def comesBack (c : Char) : List Char := if ShownByCodePoint c then escapeChar c else [c]

theorem escapeMeaning_of_shortEscape {c e : Char} (h : shortEscape c = some e) :
    escapeMeaning e = some c := by
  unfold shortEscape at h
  split at h <;> cases h <;> rfl

/-- The escape by code point is none that the language has. -/
theorem standsFor_codePoint {c : Char} (h : ShownByCodePoint c) :
    StandsFor (escapeChar c) (escapeChar c) := by
  obtain ⟨digits, -, hdigits, -, hshown⟩ := h
  have hmark : StandsFor ['\\', 'u'] ['\\', 'u'] := .unknown rfl (by decide) (by decide)
  have hbraces : StandsFor ('\x7b' :: (digits ++ ['\x7d'])) ('\x7b' :: (digits ++ ['\x7d'])) := by
    apply StandsFor.of_plain
    simp only [List.mem_cons, List.mem_append, List.not_mem_nil, or_false]
    rintro d (rfl | hd | rfl)
    · decide
    · have hdigit := hdigits d hd
      constructor <;> (rintro rfl; cases hdigit)
    · decide
  rw [hshown]
  simpa using hmark.append hbraces

theorem standsFor_escapeChar (c : Char) : StandsFor (escapeChar c) (comesBack c) := by
  by_cases hshown : ShownByCodePoint c
  · rw [comesBack, if_pos hshown]
    exact standsFor_codePoint hshown
  · rw [comesBack, if_neg hshown]
    cases hshort : shortEscape c with
    | some e =>
      rw [escapeChar_short hshort]
      exact .short (escapeMeaning_of_shortEscape hshort)
    | none =>
      have hcode : ¬needsCodePoint c := fun h => hshown (shownByCodePoint_iff.2 ⟨hshort, h⟩)
      rw [escapeChar_plain hshort hcode]
      refine .plain ?_ ?_ <;> (rintro rfl; cases hshort)

example : comesBack '\x7f' = ['\\', 'u', '\x7b', '7', 'f', '\x7d'] := by decide

theorem comesBack_of_shownByCodePoint {c : Char} (h : ShownByCodePoint c) :
    1 < (comesBack c).length := by
  rw [comesBack, if_pos h]
  obtain ⟨digits, -, -, -, hshown⟩ := h
  simp [hshown]

theorem comesBack_of_not_shownByCodePoint {c : Char} (h : ¬ShownByCodePoint c) :
    comesBack c = [c] := if_neg h

theorem length_le_comesBack (cs : List Char) : cs.length ≤ (cs.flatMap comesBack).length := by
  induction cs with
  | nil => simp
  | cons c cs ih =>
    have hc : 1 ≤ (comesBack c).length := by
      by_cases h : ShownByCodePoint c
      · exact Nat.le_of_lt (comesBack_of_shownByCodePoint h)
      · simp [comesBack_of_not_shownByCodePoint h]
    simp only [List.flatMap_cons, List.length_append, List.length_cons]
    omega

/-- A text comes back as it was if and only if no character is shown by its code point. -/
theorem flatMap_comesBack_eq_iff (cs : List Char) :
    cs.flatMap comesBack = cs ↔ ∀ c ∈ cs, ¬ShownByCodePoint c := by
  induction cs with
  | nil => simp
  | cons c cs ih =>
    by_cases h : ShownByCodePoint c
    · have hlonger : (c :: cs).length < ((c :: cs).flatMap comesBack).length := by
        have hc := comesBack_of_shownByCodePoint h
        have hcs := length_le_comesBack cs
        simp only [List.flatMap_cons, List.length_append, List.length_cons]
        omega
      constructor
      · intro heq
        rw [heq] at hlonger
        exact absurd hlonger (Nat.lt_irrefl _)
      · intro hnone
        exact absurd h (hnone c (List.mem_cons_self ..))
    · simp [List.flatMap_cons, comesBack_of_not_shownByCodePoint h, h, ih]

/-- What stands for a text is, between quotes, a literal of that text. -/
theorem StandsFor.alone {part text : List Char} (h : StandsFor part text) :
    Alone ('"' :: part ++ ['"']) .string (String.ofList text) := by
  have hinside : scanString (part ++ ['"']) = some (part, []) := by
    rw [h.scanned]
    simp [scanString]
  have htext : unescape part = text := by
    have hend := h.unescaped []
    rwa [unescape, List.append_nil, List.append_nil] at hend
  have hscan : scan ('"' :: part ++ ['"']) =
      some ⟨some (.string, String.ofList text), '"' :: part ++ ['"'], []⟩ := by
    rw [List.cons_append, scan_quote, hinside, ← htext]
    rfl
  exact alone_of_scan hscan rfl

/-- A text that is shown is read as one string literal, and its text is the one shown if and
only if no character of it was shown by its code point. -/
theorem tokenize_shown (file s : String) :
    let shown := (Constant.str s).shown
    ∃ v, tokenize file shown =
        .ok [⟨.string, v, .at file 0, .at file (byteLength shown.toList)⟩,
          endMark file (byteLength shown.toList)] ∧
      (v = s ↔ ∀ c ∈ s.toList, ¬ShownByCodePoint c) := by
  intro shown
  have hstands : StandsFor (escape s.toList) (s.toList.flatMap comesBack) :=
    .flatMap standsFor_escapeChar s.toList
  have hshown : shown.toList = '"' :: escape s.toList ++ ['"'] := String.toList_ofList
  refine ⟨String.ofList (s.toList.flatMap comesBack), ?_, ?_⟩
  · have halone := hstands.alone file 0
    rwa [← hshown, Nat.zero_add] at halone
  · rw [← flatMap_comesBack_eq_iff, ← String.toList_inj, String.toList_ofList]

end Token

end ExprCheck
