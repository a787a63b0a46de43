/-
ExprCheck.Proofs.Lines — a text is read line by line.

A line feed ends whatever comes before it, if that is complete by itself: only runs of
blanks and string literals have line feeds in them (`lineFeed_not_mem_text`), a run of
blanks makes no word and may as well be read one blank at a time, and a literal ends at
its quote. So the stretches at the front of a text stay the same when a line feed and more
text are put behind it (`scan_line`), and the tokenizer comes to the line feed as if the
text ended there.

What comes behind is read as it is by itself, at other places. Places wrap at 32 bits, and
so do the places of a text that is moved on; the main statement holds for texts of any
length, and says in addition that in a text that fits nothing wraps.
-/
import ExprCheck.Proofs.Tiling
import Mathlib.Control.Monad.Basic

namespace ExprCheck

/-! ## 1. Places moved on -/

/-- The place `n` bytes further on. -/
def Position.shift (n : Nat) (p : Position) : Position :=
  { p with offset := p.offset + n.toUInt32 }

def Span.shift (n : Nat) (s : Span) : Span := ⟨s.start.shift n, s.stop.shift n⟩

theorem Position.shift_at (file : String) (offset n : Nat) :
    (Position.at file offset).shift n = .at file (offset + n) := by
  simp only [Position.shift, Position.at, Nat.toUInt32, UInt32.ofNat_add]

theorem Position.toNat_offset_shift {p : Position} {n : Nat}
    (h : p.offset.toNat + n < Nat.pow 2 32) : (p.shift n).offset.toNat = p.offset.toNat + n := by
  have hn : n % 2 ^ 32 = n := Nat.mod_eq_of_lt (Nat.lt_of_le_of_lt (Nat.le_add_left ..) h)
  simp only [Position.shift, Nat.toUInt32, UInt32.toNat_add, UInt32.toNat_ofNat', hn]
  exact Nat.mod_eq_of_lt h

namespace Token

open Text (isDigit isHexDigit isBlank)

def shift (n : Nat) (t : Token) : Token := { t with span := t.span.shift n }

def Unrecognised.shift (n : Nat) (e : Unrecognised) : Unrecognised :=
  { e with position := e.position.shift n }

/-- What a run of the tokenizer comes to, with every place moved on. -/
def shiftRun (n : Nat) (run : Except Unrecognised (List Token)) :
    Except Unrecognised (List Token) :=
  (run.map (·.map (shift n))).mapError (·.shift n)

/-- A text is read alike wherever it stands, but for the places. -/
theorem tokenizeFrom_shift (file : String) (n : Nat) (cs : List Char) (offset : Nat) :
    tokenizeFrom file (offset + n) cs = shiftRun n (tokenizeFrom file offset cs) := by
  induction cs using induction_on_stretches generalizing offset with
  | nil =>
    rw [tokenizeFrom_nil, tokenizeFrom_nil, endMark, ← Position.shift_at]
    rfl
  | stuck c cs h =>
    rw [tokenizeFrom_stuck h, tokenizeFrom_stuck h, ← Position.shift_at]
    rfl
  | stretch cs s h ih =>
    have hplace : offset + n + byteLength s.text = offset + byteLength s.text + n :=
      Nat.add_right_comm ..
    cases hw : s.word with
    | none => rw [tokenizeFrom_skip h hw, tokenizeFrom_skip h hw, hplace, ih]
    | some word =>
      obtain ⟨kind, value⟩ := word
      rw [tokenizeFrom_word h hw, tokenizeFrom_word h hw, hplace, ih, ← Position.shift_at,
        ← Position.shift_at]
      cases tokenizeFrom file (offset + byteLength s.text) s.rest <;> rfl

/-! ## 2. Line feeds in stretches -/

theorem not_mem_takeWhile {p : Char → Bool} {c : Char} (h : p c = false) (cs : List Char) :
    c ∉ cs.takeWhile p := by
  intro hc
  have hp := List.all_eq_true.1 List.all_takeWhile c hc
  simp [h] at hp

theorem lineFeed_not_mem_scanFraction (cs : List Char) : '\n' ∉ (scanFraction cs).1 := by
  unfold scanFraction
  split
  · rename_i d cs
    split
    · rename_i hd
      have hrun := not_mem_takeWhile (p := isDigit) (c := '\n') rfl cs
      simp only [List.mem_cons, not_or]
      refine ⟨by decide, ?_, hrun⟩
      rintro rfl
      cases hd
    · simp
  · simp

theorem lineFeed_not_mem_scanSign (cs : List Char) : '\n' ∉ (scanSign cs).1 := by
  unfold scanSign
  split
  · split
    · rename_i h
      rcases h with rfl | rfl <;> simp
    · simp
  · simp

theorem lineFeed_not_mem_scanExponent (cs : List Char) : '\n' ∉ (scanExponent cs).1 := by
  unfold scanExponent
  split
  · rename_i e cs
    dsimp only
    split
    · rename_i h
      have hsign := lineFeed_not_mem_scanSign cs
      have hrun := not_mem_takeWhile (p := isDigit) (c := '\n') rfl (scanSign cs).2
      rcases h.1 with rfl | rfl <;> simp [hsign, hrun]
    · simp
  · simp

theorem lineFeed_not_mem_scanNumber (cs : List Char) : '\n' ∉ (scanNumber cs).1 := by
  have hdecimal (cs : List Char) : '\n' ∉ (scanDecimal cs).1 := by
    have hrun := not_mem_takeWhile (p := isDigit) (c := '\n') rfl cs
    simp [scanDecimal, hrun, lineFeed_not_mem_scanFraction, lineFeed_not_mem_scanExponent]
  unfold scanNumber
  split
  · rename_i x cs
    dsimp only
    split
    · rename_i h
      have hrun := not_mem_takeWhile (p := isHexDigit) (c := '\n') rfl cs
      rcases h.1 with rfl | rfl <;> simp [hrun]
    · exact hdecimal _
  · exact hdecimal _

/-- Only runs of blanks and string literals have line feeds in them. -/
theorem lineFeed_not_mem_text {c : Char} {cs : List Char} {s : Stretch}
    (h : scan (c :: cs) = some s) (hblank : isBlank c = false) (hquote : c ≠ '"') :
    '\n' ∉ s.text := by
  cases scan_iff.1 h with
  | word hc hrun =>
    rw [List.mem_cons]
    rintro (rfl | hmem)
    · cases hc
    · cases hrun _ hmem
  | number _ _ htext =>
    have hnumber := lineFeed_not_mem_scanNumber (c :: cs)
    rwa [htext] at hnumber
  | blanks _ _ hc => exact absurd hc (Bool.eq_false_iff.1 hblank)
  | string => exact absurd rfl hquote
  | comment hrun =>
    -- a comment goes up to the line feed
    simpa using fun hmem => hrun '\n' hmem rfl
  | mark _ _ _ _ _ hmark =>
    have hmarks : ∀ x ∈ marks, '\n' ∉ x.2 := by decide
    exact hmarks _ (List.mem_of_find?_eq_some hmark)

/-! ## 3. A line feed behind a stretch -/

theorem exists_scanMark_append {cs : List Char} {m : Kind × List Char} (h : scanMark cs = some m)
    (more : List Char) : ∃ m', scanMark (cs ++ more) = some m' := by
  have hmark := List.find?_some h
  have hfront : m.2 <+: cs := List.isPrefixOf_iff_prefix.1 hmark
  have hlonger : m.2.isPrefixOf (cs ++ more) :=
    List.isPrefixOf_iff_prefix.2 (hfront.trans (List.prefix_append cs more))
  exact Option.isSome_iff_exists.1 (List.find?_isSome.2 ⟨m, List.mem_of_find?_eq_some h, hlonger⟩)

theorem exists_begins_comment (cs : List Char) : ∃ s, Begins ('/' :: '/' :: cs) s := by
  obtain ⟨run, rest, rfl, -, -, hrun, hrest⟩ := exists_run (· ≠ '\n') cs
  exact ⟨_, .comment (by simpa using hrun) (by simpa using hrest)⟩

/-- Where a stretch starts that is no string literal, one starts too if there is more text
behind. -/
theorem exists_scan_append {c : Char} {cs : List Char} {s : Stretch}
    (h : scan (c :: cs) = some s) (hquote : c ≠ '"') (more : List Char) :
    ∃ s', scan (c :: cs ++ more) = some s' := by
  simp only [scan_iff] at h ⊢
  cases h with
  | @word _ run rest hc =>
    obtain ⟨run', rest', hrun, -, -, hall, hends⟩ := exists_run isWordChar (run ++ rest ++ more)
    rw [List.cons_append, hrun]
    exact ⟨_, .word hc hall hends⟩
  | number hword hc => exact ⟨_, .number hword hc rfl⟩
  | @blanks _ run rest hword hdigit hc =>
    obtain ⟨run', rest', hrun, -, -, hall, hends⟩ := exists_run isBlank (run ++ rest ++ more)
    rw [List.cons_append, hrun]
    exact ⟨_, .blanks hword hdigit hc hall hends⟩
  | string => exact absurd rfl hquote
  | @comment run rest => exact exists_begins_comment (run ++ rest ++ more)
  | mark hword hdigit hblank _ hcomment hmark =>
    by_cases hslash : c = '/' ∧ (cs ++ more).head? = some '/'
    · obtain ⟨rfl, hhead⟩ := hslash
      obtain ⟨after, hafter⟩ := List.head?_eq_some_iff.1 hhead
      rw [List.cons_append, hafter]
      exact exists_begins_comment after
    · obtain ⟨⟨kind, text⟩, hmark'⟩ := exists_scanMark_append hmark more
      exact ⟨_, .mark hword hdigit hblank hquote hslash hmark'⟩

/-- A string literal ends at its quote, whatever is put behind. -/
theorem scan_quote_append {cs : List Char} {s : Stretch} (h : scan ('"' :: cs) = some s)
    (more : List Char) : scan ('"' :: cs ++ more) = some ⟨s.word, s.text, s.rest ++ more⟩ := by
  rw [scan_quote] at h
  obtain ⟨⟨inside, rest⟩, hinside, rfl⟩ := Option.map_eq_some_iff.1 h
  have hcs : inside ++ '"' :: rest = cs := scanString_append hinside
  rw [List.cons_append, scan_quote, ← hcs, List.append_assoc, List.cons_append,
    scanString_cut hinside (rest ++ more)]
  rfl

/-- A stretch other than a run of blanks stays the same if a line feed and more text are put
behind the text. -/
theorem scan_line {c : Char} {cs : List Char} {s : Stretch} (h : scan (c :: cs) = some s)
    (hblank : isBlank c = false) (more : List Char) :
    scan (c :: cs ++ '\n' :: more) = some ⟨s.word, s.text, s.rest ++ '\n' :: more⟩ := by
  by_cases hquote : c = '"'
  · subst hquote
    exact scan_quote_append h _
  obtain ⟨s', hs'⟩ := exists_scan_append h hquote ('\n' :: more)
  have hfeed : '\n' ∉ s'.text := lineFeed_not_mem_text hs' hblank hquote
  -- without a line feed in it, the stretch of the longer text is one of the shorter
  obtain ⟨rest, hcs, hrest⟩ :
      ∃ rest, c :: cs = s'.text ++ rest ∧ s'.rest = rest ++ '\n' :: more := by
    rcases List.append_eq_append_iff.1 (scan_append hs') with
      ⟨rest, hcs, hrest⟩ | ⟨rest, htext, hrest⟩
    · exact ⟨rest, hcs, hrest⟩
    · cases rest with
      | nil => exact ⟨[], by simpa using htext.symm, by simpa using hrest.symm⟩
      | cons d rest =>
        obtain rfl := (List.cons.inj hrest).1
        simp [htext] at hfeed
  have hcut := scan_of_cut hs' (hrest ▸ List.prefix_append rest ('\n' :: more))
  rw [← hcs, h] at hcut
  cases hcut
  rw [hs', ← hrest]

/-! ## 4. Blanks -/

/-- Blanks start neither words nor numbers. -/
theorem isWordChar_eq_false_of_isBlank {c : Char} (h : isBlank c) : isWordChar c = false := by
  rw [← Bool.not_eq_true]
  intro hword
  have hle (a b : Char) : a ≤ b ↔ a.toNat ≤ b.toNat := by
    rw [Char.le_def, UInt32.le_iff_toNat_le]
    rfl
  have heq (a b : Char) : a = b ↔ a.toNat = b.toNat := Char.toNat_inj.symm
  have hranges : Text.Ascending Text.blankRanges := by simp [Text.Ascending, Text.blankRanges]
  rw [isBlank, Text.inRanges_iff hranges] at h
  simp only [Text.blankRanges, List.mem_cons, List.not_mem_nil, or_false, exists_eq_or_imp,
    exists_eq_left] at h
  simp only [isWordChar, isWordStart, isDigit, Bool.or_eq_true, Bool.and_eq_true,
    decide_eq_true_eq, beq_iff_eq, hle, heq, Char.reduceToNat] at hword
  omega

theorem scan_blank {c : Char} (h : isBlank c) (cs : List Char) :
    scan (c :: cs) = some ⟨none, (c :: cs).takeWhile isBlank, (c :: cs).dropWhile isBlank⟩ := by
  have hchar := isWordChar_eq_false_of_isBlank h
  simp only [isWordChar, Bool.or_eq_false_iff] at hchar
  rw [scan, if_neg (by simp [hchar]), if_neg (by simp [hchar]), if_pos h]

/-- A run of blanks is passed over. -/
theorem tokenizeFrom_dropWhile_isBlank (file : String) (offset : Nat) (cs : List Char) :
    tokenizeFrom file (offset + byteLength (cs.takeWhile isBlank)) (cs.dropWhile isBlank) =
      tokenizeFrom file offset cs := by
  cases cs with
  | nil => rfl
  | cons c cs =>
    by_cases h : isBlank c
    · rw [tokenizeFrom_skip (scan_blank h cs) rfl]
    · simp [h]

section

variable {file : String} {offset : Nat}

theorem tokenizeFrom_blank {c : Char} (h : isBlank c) (cs : List Char) :
    tokenizeFrom file offset (c :: cs) = tokenizeFrom file (offset + c.utf8Size) cs := by
  rw [← tokenizeFrom_dropWhile_isBlank, ← tokenizeFrom_dropWhile_isBlank _ _ cs]
  simp [h, Nat.add_assoc]

theorem tokenizeFrom_blanks {run : List Char} (h : ∀ c ∈ run, isBlank c) (cs : List Char) :
    tokenizeFrom file offset (run ++ cs) = tokenizeFrom file (offset + byteLength run) cs := by
  induction run generalizing offset with
  | nil => rfl
  | cons c run ih =>
    obtain ⟨hc, hrun⟩ := List.forall_mem_cons.1 h
    rw [List.cons_append, tokenizeFrom_blank hc, ih hrun, byteLength_cons, Nat.add_assoc]

end

/-! ## 5. A line feed behind a text -/

/-- The tokens of a text that is complete are words and the end mark, and with a line feed and
more text behind it the words are followed by what the tokenizer finds there. -/
theorem tokenizeFrom_line {file : String} {offset : Nat} {cs : List Char} {tokens : List Token}
    (h : tokenizeFrom file offset cs = .ok tokens) (more : List Char) :
    ∃ words, tokens = words ++ [endMark file (offset + byteLength cs)] ∧
      tokenizeFrom file offset (cs ++ '\n' :: more) =
        (tokenizeFrom file (offset + byteLength cs + 1) more).map (words ++ ·) := by
  induction cs using induction_on_stretches generalizing offset tokens with
  | nil =>
    rw [tokenizeFrom_nil] at h
    cases h
    refine ⟨[], rfl, ?_⟩
    rw [List.nil_append, tokenizeFrom_blank (by decide)]
    exact (id_map _).symm
  | stuck c cs hstuck =>
    rw [tokenizeFrom_stuck hstuck] at h
    cases h
  | stretch cs s hscan ih =>
    cases cs with
    | nil => cases hscan
    | cons c cs =>
      have hlength : offset + byteLength s.text + byteLength s.rest =
          offset + byteLength (c :: cs) := by
        rw [← scan_append hscan, byteLength_append, Nat.add_assoc]
      by_cases hblank : isBlank c
      · -- the run may go on behind the line feed, so it is not the same stretch of both texts
        rw [scan_blank hblank] at hscan
        cases hscan
        dsimp only at ih hlength
        rw [← tokenizeFrom_dropWhile_isBlank] at h
        obtain ⟨words, rfl, hline⟩ := ih h
        refine ⟨words, by rw [hlength], ?_⟩
        rw [hlength] at hline
        rw [← hline, ← tokenizeFrom_blanks (List.all_eq_true.1 List.all_takeWhile),
          ← List.append_assoc, List.takeWhile_append_dropWhile]
      · have hmore := scan_line hscan (Bool.eq_false_iff.2 hblank) more
        obtain ⟨tokens, hrest, rfl⟩ := (tokenizeFrom_eq_ok_iff hscan).1 h
        obtain ⟨words, rfl, hline⟩ := ih hrest
        rw [hlength] at hline
        refine ⟨s.tokens file offset ++ words, by rw [hlength, List.append_assoc], ?_⟩
        rw [tokenizeFrom_of_scan hmore]
        dsimp only
        rw [hline]
        cases tokenizeFrom file (offset + byteLength (c :: cs) + 1) more with
        | error e => rfl
        | ok tokens => exact congrArg Except.ok (List.append_assoc ..).symm

/-- The tokenizer stops in front of a character with which no stretch starts. What is in front
of that character is complete: where the text ends there, the same stretches are read. -/
theorem complete_of_tokenizeFrom {file : String} {offset : Nat} {cs : List Char} {e : Unrecognised}
    (h : tokenizeFrom file offset cs = .error e) :
    ∃ before after, cs = before ++ e.char :: after ∧
      e.position = .at file (offset + byteLength before) ∧
      (∃ tokens, tokenizeFrom file offset before = .ok tokens) ∧ scan (e.char :: after) = none := by
  induction cs using induction_on_stretches generalizing offset with
  | nil =>
    rw [tokenizeFrom_nil] at h
    cases h
  | stuck c cs hstuck =>
    rw [tokenizeFrom_stuck hstuck] at h
    cases h
    exact ⟨[], cs, rfl, rfl, ⟨_, tokenizeFrom_nil⟩, hstuck⟩
  | stretch cs s hscan ih =>
    obtain ⟨before, after, hcs, hposition, ⟨tokens, htokens⟩, hstuck⟩ :=
      ih ((tokenizeFrom_eq_error_iff hscan).1 h)
    have hcut := scan_of_cut hscan (hcs ▸ List.prefix_append before (e.char :: after))
    refine ⟨s.text ++ before, after, ?_, ?_, ?_, hstuck⟩
    · rw [List.append_assoc, ← hcs, scan_append hscan]
    · rw [hposition, byteLength_append, Nat.add_assoc]
    · exact ⟨_, (tokenizeFrom_eq_ok_iff hcut).2 ⟨tokens, htokens, rfl⟩⟩

theorem stop_of_tokenizeFrom {file : String} {offset : Nat} {cs : List Char} {e : Unrecognised}
    (h : tokenizeFrom file offset cs = .error e) :
    ∃ before after, cs = before ++ e.char :: after ∧
      e.position = .at file (offset + byteLength before) := by
  obtain ⟨before, after, hcs, hposition, -⟩ := complete_of_tokenizeFrom h
  exact ⟨before, after, hcs, hposition⟩

/-- The places of a text that fits stay within it, and so they do not wrap if there is room
for them to be moved on. -/
theorem toNat_shift_of_tokenize {file source : String} {tokens : List Token} {n : Nat}
    (h : tokenize file source = .ok tokens) (hsize : byteLength source.toList + n < Nat.pow 2 32) :
    ∀ t ∈ tokens, (t.shift n).startByte = t.startByte + n ∧
      (t.shift n).stopByte = t.stopByte + n := by
  have hfits : byteLength source.toList < Nat.pow 2 32 :=
    Nat.lt_of_le_of_lt (Nat.le_add_right ..) hsize
  have htiled : Tiled file 0 source.toList tokens := tiled_of_tokenizeFrom h
  obtain ⟨words, rfl, htiles⟩ := @Tiled.tiles _ _ _ _ htiled [] rfl hfits
  have hend := Position.toNat_offset_at hfits file
  have hbounds : ∀ t ∈ words ++ [endMark file (byteLength source.toList)],
      t.startByte ≤ byteLength source.toList ∧ t.stopByte ≤ byteLength source.toList := by
    intro t ht
    rcases List.mem_append.1 ht with ht | ht
    · have hword : t.startByte < t.stopByte ∧ t.stopByte ≤ byteLength source.toList :=
        (htiles.bounds t ht).2
      omega
    · rw [List.mem_singleton.1 ht]
      exact ⟨Nat.le_of_eq hend, Nat.le_of_eq hend⟩
  intro t ht
  obtain ⟨hstart, hstop⟩ := hbounds t ht
  exact ⟨Position.toNat_offset_shift (by unfold startByte at hstart; omega),
    Position.toNat_offset_shift (by unfold stopByte at hstop; omega)⟩

/-- If a text is complete, a line feed and a second text behind it are read as the words of the
first and then the second text, moved on by the first and the line feed, or what stops the
second stops both. In a text that fits, the places moved on do not wrap. -/
theorem tokenize_lines {file s₁ s₂ : String} {tokens₁ : List Token}
    (h : tokenize file s₁ = .ok tokens₁) :
    let n := byteLength s₁.toList + 1
    (∀ tokens₂, tokenize file s₂ = .ok tokens₂ →
      tokenize file (s₁ ++ "\n" ++ s₂) = .ok (withoutEof tokens₁ ++ tokens₂.map (shift n)) ∧
      (byteLength s₂.toList + n < Nat.pow 2 32 → ∀ t ∈ tokens₂,
        (t.shift n).startByte = t.startByte + n ∧ (t.shift n).stopByte = t.stopByte + n)) ∧
    ∀ e, tokenize file s₂ = .error e →
      tokenize file (s₁ ++ "\n" ++ s₂) = .error (e.shift n) ∧
      (byteLength s₂.toList + n < Nat.pow 2 32 →
        (e.shift n).position.offset.toNat = e.position.offset.toNat + n) := by
  intro n
  obtain ⟨words, rfl, hline⟩ := tokenizeFrom_line h s₂.toList
  have hwords : withoutEof (words ++ [endMark file (0 + byteLength s₁.toList)]) = words := by
    simp [withoutEof, endMark]
  have hrun : tokenize file (s₁ ++ "\n" ++ s₂) =
      (shiftRun n (tokenize file s₂)).map (words ++ ·) := by
    have hplace : 0 + byteLength s₁.toList + 1 = 0 + n := Nat.add_assoc ..
    rw [hplace, tokenizeFrom_shift] at hline
    simpa [tokenize, String.toList_append] using hline
  constructor
  · intro tokens₂ h₂
    rw [h₂] at hrun
    exact ⟨by rw [hrun, hwords]; rfl, toNat_shift_of_tokenize h₂⟩
  · intro e h₂
    rw [h₂] at hrun
    refine ⟨hrun, fun hsize => Position.toNat_offset_shift ?_⟩
    obtain ⟨before, after, hcs, hposition⟩ := stop_of_tokenizeFrom h₂
    have hbefore : byteLength before ≤ byteLength s₂.toList := by
      rw [hcs, byteLength_append]
      exact Nat.le_add_right ..
    rw [hposition, Nat.zero_add, Position.toNat_offset_at (by omega)]
    omega

/-- A line that ends in a comment, with a word and with a character that starts no word on the
line behind it. -/
theorem tokenize_lines_commented :
    let word (name : String) (start stop : Nat) : Token :=
      ⟨.identifier, name, .at "f" start, .at "f" stop⟩
    tokenize "f" "a // x" = .ok [word "a" 0 1, endMark "f" 6] ∧
      tokenize "f" "b" = .ok [word "b" 0 1, endMark "f" 1] ∧
      tokenize "f" "b $" = .error ⟨'$', .at "f" 2⟩ ∧
      byteLength "b $".toList + 7 < Nat.pow 2 32 ∧
      tokenize "f" ("a // x" ++ "\n" ++ "b") =
        .ok [word "a" 0 1, word "b" 7 8, endMark "f" 8] ∧
      (∀ t ∈ [word "b" 0 1, endMark "f" 1], (t.shift 7).startByte = t.startByte + 7) ∧
      tokenize "f" ("a // x" ++ "\n" ++ "b $") = .error ⟨'$', .at "f" 9⟩ := by
  intro word
  have hline : tokenize "f" "a // x" = .ok [word "a" 0 1, endMark "f" 6] := by decide +kernel
  have hword : tokenize "f" "b" = .ok [word "b" 0 1, endMark "f" 1] := by decide +kernel
  have hstuck : tokenize "f" "b $" = .error ⟨'$', .at "f" 2⟩ := by decide +kernel
  obtain ⟨htokens, hplaces⟩ := (@tokenize_lines "f" "a // x" "b" _ hline).1 _ hword
  obtain ⟨hstop, -⟩ := (@tokenize_lines "f" "a // x" "b $" _ hline).2 _ hstuck
  refine ⟨hline, hword, hstuck, by decide, htokens, ?_, hstop⟩
  intro t ht
  exact (hplaces (by decide) t ht).1

end Token

end ExprCheck
