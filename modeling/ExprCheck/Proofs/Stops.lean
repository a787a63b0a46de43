/-
ExprCheck.Proofs.Stops — where the tokenizer stops.

The tokenizer names the character that it stops at. That it is the first bad one has two
sides. In front of it nothing is wrong: the stretches read up to there are read again when
the text ends there (`complete_of_tokenizeFrom`). And behind that place no text is long or
short enough to make a token: a stretch at the front of a text starts with one there is more
of as well, so where none starts, none starts in a beginning of the text either
(`scan_eq_none_of_cut`). String literals are the case with something to it. Most rules look at
a character or two, but an open quote is refused because of all that follows it: no later quote
closes it, or something between is no escape.

Places are offsets of 32 bits, hence the bound on the length of the text.
-/
import ExprCheck.Proofs.Lines

namespace ExprCheck.Token

/-- Where no stretch starts in a text, none starts where the text is cut off. -/
theorem scan_eq_none_of_cut {cs start : List Char} (h : scan cs = none) (hp : start <+: cs) :
    scan start = none := by
  obtain ⟨more, rfl⟩ := hp
  cases start with
  | nil => rfl
  | cons c start =>
    cases hstart : scan (c :: start) with
    | none => rfl
    | some s =>
      obtain ⟨s', hs'⟩ : ∃ s', scan (c :: start ++ more) = some s' := by
        by_cases hquote : c = '"'
        · subst hquote
          exact ⟨_, scan_quote_append hstart more⟩
        · exact exists_scan_append hstart hquote more
      rw [h] at hs'
      cases hs'

/-- Of a text in which no stretch starts, no beginning is complete, and what stops the
tokenizer is always the first character. -/
theorem tokenizeFrom_of_cut {file : String} {offset : Nat} {c : Char} {cs start : List Char}
    (h : scan (c :: cs) = none) (hne : start ≠ []) (hp : start <+: c :: cs) :
    tokenizeFrom file offset start = .error ⟨c, .at file offset⟩ := by
  have hstuck := scan_eq_none_of_cut h hp
  cases start with
  | nil => exact absurd rfl hne
  | cons d start =>
    obtain rfl : d = c := (List.cons_prefix_cons.1 hp).1
    exact tokenizeFrom_stuck hstuck

/-- The place that the tokenizer stops at is between two characters of the text, and the
character it names is the one behind it. The text in front of that place is complete, and of
the text behind it no beginning is, whatever its length: each is refused at its first
character. -/
theorem tokenize_stops {file source : String} {e : Unrecognised}
    (hsize : byteLength source.toList < Nat.pow 2 32) (h : tokenize file source = .error e) :
    ∃ before after, source.toList = before ++ e.char :: after ∧
      e.position.file = file ∧ e.position.offset.toNat = byteLength before ∧
      (∃ tokens, tokenize file (String.ofList before) = .ok tokens) ∧
      ∀ start, start ≠ [] → start <+: e.char :: after →
        tokenize file (String.ofList start) = .error ⟨e.char, .at file 0⟩ := by
  obtain ⟨before, after, hcs, hposition, hcomplete, hstuck⟩ := complete_of_tokenizeFrom h
  rw [Nat.zero_add] at hposition
  have hbefore : byteLength before ≤ byteLength source.toList := by
    rw [hcs, byteLength_append]
    exact Nat.le_add_right ..
  refine ⟨before, after, hcs, ?_, ?_, ?_, ?_⟩
  · rw [hposition]
    rfl
  · rw [hposition]
    exact Position.toNat_offset_at (Nat.lt_of_le_of_lt hbefore hsize) file
  · rw [tokenize, String.toList_ofList]
    exact hcomplete
  · intro start hne hp
    rw [tokenize, String.toList_ofList]
    exact tokenizeFrom_of_cut hstuck hne hp

/-- A quote behind a comment with an accented letter. The quote is not closed, since the quote
that comes next belongs to an escape. -/
theorem tokenize_stops_quote :
    let source := "a // é\n\"b\\\""
    let e : Unrecognised := ⟨'"', .at "f" 8⟩
    byteLength source.toList < Nat.pow 2 32 ∧ tokenize "f" source = .error e ∧
      ∃ before after, source.toList = before ++ '"' :: after ∧ 8 = byteLength before ∧
        (∃ tokens, tokenize "f" (String.ofList before) = .ok tokens) ∧
        ∀ start, start ≠ [] → start <+: '"' :: after →
          tokenize "f" (String.ofList start) = .error ⟨'"', .at "f" 0⟩ := by
  intro source e
  have hsize : byteLength source.toList < Nat.pow 2 32 := by decide
  have hrun : tokenize "f" source = .error e := by decide +kernel
  obtain ⟨before, after, hcs, -, hoffset, hcomplete, hstuck⟩ := tokenize_stops hsize hrun
  exact ⟨hsize, hrun, before, after, hcs, hoffset, hcomplete, hstuck⟩

end ExprCheck.Token
