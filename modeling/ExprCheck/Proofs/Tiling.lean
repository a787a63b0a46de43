/-
ExprCheck.Proofs.Tiling — tokens and gaps make up the text.

A run of the tokenizer cuts a text into stretches, and the stretches that make no word,
blanks and comments, run together into the gaps between those that do. `Tiled` says of
tokens that they are the words of such a cut, at their places. Each rule has a gap and the
word after it, so that what is said of a word and of the gap before it is said once.

`tiled_of_tokenizeFrom` goes by the run. What it needs at each stretch is that the stretch
is read as the same one when the text ends behind it, or behind the gap that it is part of;
that is `scan_of_cut`.

Places are offsets of 32 bits, which is where the bound on the length of the text comes
from: in a longer text they would wrap.
-/
import ExprCheck.Proofs.Stretches

namespace ExprCheck

/-! ## 1. Parts of a text -/

/-- The first `n` bytes of a text, unless they end inside a character or the text is
shorter. -/
def takeBytes : Nat → List Char → Option (List Char)
  | 0, _ => some []
  | _ + 1, [] => none
  | n + 1, c :: cs =>
    if c.utf8Size ≤ n + 1 then (takeBytes (n + 1 - c.utf8Size) cs).map (c :: ·) else none

theorem takeBytes_byteLength (a b : List Char) : takeBytes (byteLength a) (a ++ b) = some a := by
  induction a with
  | nil => simp [takeBytes]
  | cons c a ih =>
    obtain ⟨k, hk⟩ : ∃ k, c.utf8Size + byteLength a = k + 1 :=
      ⟨c.utf8Size + byteLength a - 1, by have := c.utf8Size_pos; omega⟩
    simp only [byteLength_cons, List.cons_append, hk, takeBytes]
    rw [if_pos (by omega), show k + 1 - c.utf8Size = byteLength a by omega, ih, Option.map_some]

/-- The part of a text from one byte up to another, if both stand between characters. -/
def slice? (cs : List Char) (start stop : Nat) : Option (List Char) :=
  if start ≤ stop then (dropBytes start cs).bind (takeBytes (stop - start)) else none

theorem slice?_append (a b c : List Char) :
    slice? (a ++ (b ++ c)) (byteLength a) (byteLength a + byteLength b) = some b := by
  unfold slice?
  rw [if_pos (Nat.le_add_right _ _), dropBytes_byteLength, Option.bind_some,
    Nat.add_sub_cancel_left, takeBytes_byteLength]

/-- An offset that fits is kept. -/
theorem Position.toNat_offset_at {n : Nat} (h : n < Nat.pow 2 32) (file : String) :
    (Position.at file n).offset.toNat = n := by
  rw [Position.at, Nat.toUInt32, UInt32.toNat_ofNat']
  exact Nat.mod_eq_of_lt h

namespace Token

/-! ## 2. The run of the tokenizer -/

/-- The end mark of a text that ends `offset` bytes into the file. -/
def endMark (file : String) (offset : Nat) : Token :=
  ⟨.eof, "EOF", .at file offset, .at file offset⟩

section

variable {file : String} {offset : Nat} {cs : List Char} {s : Stretch}

theorem tokenizeFrom_nil : tokenizeFrom file offset [] = .ok [endMark file offset] := by
  rw [tokenizeFrom]
  rfl

/-- The token of a stretch that makes a word, if it does. -/
def Stretch.tokens (s : Stretch) (file : String) (offset : Nat) : List Token :=
  s.word.toList.map fun word =>
    ⟨word.1, word.2, .at file offset, .at file (offset + byteLength s.text)⟩

theorem tokenizeFrom_of_scan (h : scan cs = some s) :
    tokenizeFrom file offset cs =
      (tokenizeFrom file (offset + byteLength s.text) s.rest).map (s.tokens file offset ++ ·) := by
  cases cs with
  | nil => cases h
  | cons c cs =>
    rw [tokenizeFrom, Stretch.tokens]
    split
    · rename_i h'
      rw [h] at h'
      cases h'
    · rename_i h'
      rw [h] at h'
      cases h'
      cases s.word <;> rfl

/-- A text is read to its end if and only if what follows its first stretch is. -/
theorem tokenizeFrom_eq_ok_iff (h : scan cs = some s) {tokens : List Token} :
    tokenizeFrom file offset cs = .ok tokens ↔
      ∃ more, tokenizeFrom file (offset + byteLength s.text) s.rest = .ok more ∧
        tokens = s.tokens file offset ++ more := by
  rw [tokenizeFrom_of_scan h]
  cases tokenizeFrom file (offset + byteLength s.text) s.rest <;>
    simp [Except.map, @eq_comm _ tokens]

theorem tokenizeFrom_eq_error_iff (h : scan cs = some s) {e : Unrecognised} :
    tokenizeFrom file offset cs = .error e ↔
      tokenizeFrom file (offset + byteLength s.text) s.rest = .error e := by
  rw [tokenizeFrom_of_scan h]
  cases tokenizeFrom file (offset + byteLength s.text) s.rest <;> simp [Except.map]

theorem tokenizeFrom_skip (h : scan cs = some s) (hw : s.word = none) :
    tokenizeFrom file offset cs = tokenizeFrom file (offset + byteLength s.text) s.rest := by
  rw [tokenizeFrom_of_scan h, Stretch.tokens, hw]
  cases tokenizeFrom file (offset + byteLength s.text) s.rest <;> rfl

theorem tokenizeFrom_word (h : scan cs = some s) {kind : Kind} {value : String}
    (hw : s.word = some (kind, value)) :
    tokenizeFrom file offset cs =
      (tokenizeFrom file (offset + byteLength s.text) s.rest).map
        (⟨kind, value, .at file offset, .at file (offset + byteLength s.text)⟩ :: ·) := by
  rw [tokenizeFrom_of_scan h, Stretch.tokens, hw]
  rfl

theorem tokenizeFrom_stuck {c : Char} (h : scan (c :: cs) = none) :
    tokenizeFrom file offset (c :: cs) = .error ⟨c, .at file offset⟩ := by
  rw [tokenizeFrom]
  split
  · rfl
  · rename_i h'
    rw [h] at h'
    cases h'

end

/-- An induction along the stretches of a text. -/
theorem induction_on_stretches {motive : List Char → Prop} (nil : motive [])
    (stuck : ∀ c cs, scan (c :: cs) = none → motive (c :: cs))
    (stretch : ∀ cs s, scan cs = some s → motive s.rest → motive cs) (cs : List Char) :
    motive cs := by
  induction hn : cs.length using Nat.strongRecOn generalizing cs with
  | ind n ih =>
    cases cs with
    | nil => exact nil
    | cons c cs =>
      cases h : scan (c :: cs) with
      | none => exact stuck c cs h
      | some s =>
        have hshorter : s.rest.length < n := hn ▸ scan_rest_length h
        exact stretch _ s h (ih _ hshorter s.rest rfl)

theorem wordKind_ne_eof (spelling : String) : wordKind spelling ≠ .eof := by
  unfold wordKind Kind.ofWord?
  split <;> decide

/-- No stretch makes an end mark. -/
theorem kind_of_scan {cs : List Char} {s : Stretch} (h : scan cs = some s) {kind : Kind}
    {value : String} (hw : s.word = some (kind, value)) : kind ≠ .eof := by
  cases scan_iff.1 h with
  | word =>
    cases hw
    exact wordKind_ne_eof _
  | number | string =>
    cases hw
    decide
  | blanks | comment => cases hw
  | mark _ _ _ _ _ hmark =>
    cases hw
    have hmarks : ∀ x ∈ marks, x.1 ≠ .eof := by decide
    exact hmarks _ (List.mem_of_find?_eq_some hmark)

/-! ## 3. Tilings -/

/-- The text is read as a gap, wherever it stands. -/
def Gap (cs : List Char) : Prop :=
  ∀ file offset, tokenizeFrom file offset cs = .ok [endMark file (offset + byteLength cs)]

/-- The text is read as one word, wherever it stands. -/
def Alone (cs : List Char) (kind : Kind) (value : String) : Prop :=
  ∀ file offset, tokenizeFrom file offset cs =
    .ok [⟨kind, value, .at file offset, .at file (offset + byteLength cs)⟩,
      endMark file (offset + byteLength cs)]

/-- The tokens are the words of a text that starts `offset` bytes into the file, and the
end mark behind them. -/
inductive Tiled (file : String) : Nat → List Char → List Token → Prop
  | last {offset gap} (hgap : Gap gap) :
      Tiled file offset gap [endMark file (offset + byteLength gap)]
  | word {offset gap text rest kind value tokens} (hgap : Gap gap) (hne : text ≠ [])
      (hkind : kind ≠ .eof) (htext : Alone text kind value)
      (hrest : Tiled file (offset + byteLength gap + byteLength text) rest tokens) :
      Tiled file offset (gap ++ (text ++ rest))
        (⟨kind, value, .at file (offset + byteLength gap),
          .at file (offset + byteLength gap + byteLength text)⟩ :: tokens)

theorem gap_nil : Gap [] := fun _ _ => tokenizeFrom_nil

/-- A stretch that makes no word lengthens the gap behind it. -/
theorem Gap.skip {cs : List Char} {s : Stretch} (h : scan cs = some s) (hw : s.word = none)
    {gap : List Char} (hgap : Gap gap) (hp : gap <+: s.rest) : Gap (s.text ++ gap) := by
  intro file offset
  rw [tokenizeFrom_skip (scan_of_cut h hp) hw]
  dsimp only
  rw [hgap, byteLength_append, Nat.add_assoc]

theorem Tiled.skip {file : String} {offset : Nat} {cs : List Char} {s : Stretch}
    {tokens : List Token} (h : scan cs = some s) (hw : s.word = none)
    (hrest : Tiled file (offset + byteLength s.text) s.rest tokens) :
    Tiled file offset cs tokens := by
  rw [← scan_append h]
  have hlength (gap : List Char) : offset + byteLength s.text + byteLength gap =
      offset + byteLength (s.text ++ gap) := by
    rw [byteLength_append, Nat.add_assoc]
  generalize hr : s.rest = rest at hrest
  cases hrest with
  | last hgap =>
    rw [hlength]
    exact .last (hgap.skip h hw (hr ▸ List.prefix_rfl))
  | @word _ gap text rest _ _ _ hgap hne hkind htext hrest =>
    rw [hlength] at hrest ⊢
    rw [← List.append_assoc]
    exact .word (hgap.skip h hw (hr ▸ List.prefix_append _ _)) hne hkind htext hrest

/-- A stretch that makes a word is read as that word when the text ends behind it. -/
theorem alone_of_scan {cs : List Char} {s : Stretch} (h : scan cs = some s) {kind : Kind}
    {value : String} (hw : s.word = some (kind, value)) : Alone s.text kind value := by
  intro file offset
  have hcut := scan_of_cut h List.nil_prefix
  rw [List.append_nil] at hcut
  rw [tokenizeFrom_word hcut hw]
  dsimp only
  rw [tokenizeFrom_nil]
  rfl

theorem tiled_of_tokenizeFrom {file : String} {offset : Nat} {cs : List Char}
    {tokens : List Token} (h : tokenizeFrom file offset cs = .ok tokens) :
    Tiled file offset cs tokens := by
  induction cs using induction_on_stretches generalizing offset tokens with
  | nil =>
    rw [tokenizeFrom_nil] at h
    cases h
    exact .last gap_nil
  | stuck c cs hscan =>
    rw [tokenizeFrom_stuck hscan] at h
    cases h
  | stretch cs s hscan ih =>
    cases hw : s.word with
    | none =>
      rw [tokenizeFrom_skip hscan hw] at h
      exact (ih h).skip hscan hw
    | some word =>
      obtain ⟨kind, value⟩ := word
      obtain ⟨more, hrest, rfl⟩ := (tokenizeFrom_eq_ok_iff hscan).1 h
      have htiled := Tiled.word gap_nil (scan_ne_nil hscan) (kind_of_scan hscan hw)
        (alone_of_scan hscan hw) (ih hrest)
      rw [List.nil_append, scan_append hscan] at htiled
      rw [Stretch.tokens, hw]
      exact htiled

/-! ## 4. Places -/

/-- The byte that the token starts at. -/
def startByte (t : Token) : Nat := t.span.start.offset.toNat

/-- The byte behind the token. -/
def stopByte (t : Token) : Nat := t.span.stop.offset.toNat

/-- What the token says, wherever it stands. -/
def entry (t : Token) : Kind × String := (t.kind, t.value)

/-- The text by itself is read as these words, and then it ends. -/
def ReadAs (cs : List Char) (words : List (Kind × String)) : Prop :=
  ∀ file, (tokenize file (String.ofList cs)).map (·.map entry) = .ok (words ++ [(.eof, "EOF")])

theorem Gap.readAs {cs : List Char} (h : Gap cs) : ReadAs cs [] := by
  intro file
  rw [tokenize, String.toList_ofList, h file 0]
  rfl

theorem Alone.readAs {cs : List Char} {kind : Kind} {value : String} (h : Alone cs kind value) :
    ReadAs cs [(kind, value)] := by
  intro file
  rw [tokenize, String.toList_ofList, h file 0]
  rfl

/-- The gaps of a text from the byte `start` up to the byte `stop`: in front of the words,
between them, and behind them. -/
def gapsFrom (start : Nat) : List Token → (stop : Nat) → List (Nat × Nat)
  | [], stop => [(start, stop)]
  | t :: ts, stop => (start, t.startByte) :: gapsFrom t.stopByte ts stop

/-- From the byte `start` on, the text is made of the words, each at its place, and of gaps. -/
structure Tiles (cs : List Char) (start : Nat) (words : List Token) : Prop where
  bounds : ∀ t ∈ words, start ≤ t.startByte ∧ t.startByte < t.stopByte ∧
    t.stopByte ≤ byteLength cs
  ordered : words.Pairwise fun t u => t.stopByte ≤ u.startByte
  read : ∀ t ∈ words, t.kind ≠ .eof ∧
    ∃ text, slice? cs t.startByte t.stopByte = some text ∧ ReadAs text [t.entry]
  gaps : ∀ gap ∈ gapsFrom start words (byteLength cs),
    ∃ text, slice? cs gap.1 gap.2 = some text ∧ ReadAs text []

theorem Tiles.nil {cs gap : List Char} {start : Nat}
    (hgap : slice? cs start (byteLength cs) = some gap) (hread : ReadAs gap []) :
    Tiles cs start [] where
  bounds := by simp
  ordered := .nil
  read := by simp
  gaps := by simpa [gapsFrom] using ⟨gap, hgap, hread⟩

theorem Tiles.cons {cs gap text : List Char} {start first stop : Nat} {t : Token}
    {words : List Token} (hfirst : t.startByte = first) (hstop : t.stopByte = stop)
    (hgap : slice? cs start first = some gap) (hskip : ReadAs gap [])
    (htext : slice? cs first stop = some text) (hread : ReadAs text [t.entry])
    (hkind : t.kind ≠ .eof) (hbounds : start ≤ first ∧ first < stop ∧ stop ≤ byteLength cs)
    (h : Tiles cs stop words) : Tiles cs start (t :: words) := by
  subst hfirst hstop
  constructor
  case bounds =>
    intro u hu
    rcases List.mem_cons.1 hu with rfl | hu
    · exact hbounds
    · have := h.bounds u hu
      omega
  case ordered => exact .cons (fun u hu => (h.bounds u hu).1) h.ordered
  case read =>
    intro u hu
    rcases List.mem_cons.1 hu with rfl | hu
    · exact ⟨hkind, text, htext, hread⟩
    · exact h.read u hu
  case gaps =>
    intro g hg
    rcases List.mem_cons.1 hg with rfl | hg
    · exact ⟨gap, hgap, hskip⟩
    · exact h.gaps g hg

theorem byteLength_pos {cs : List Char} (h : cs ≠ []) : 0 < byteLength cs := by
  cases cs with
  | nil => exact absurd rfl h
  | cons c cs =>
    have := c.utf8Size_pos
    rw [byteLength_cons]
    omega

/-- Tokens behind a text that is already read are at their places in the whole. -/
theorem Tiled.tiles {file : String} {offset : Nat} {cs : List Char} {tokens : List Token}
    (h : Tiled file offset cs tokens) {before : List Char} (hoffset : byteLength before = offset)
    (hsize : byteLength (before ++ cs) < Nat.pow 2 32) :
    ∃ words, tokens = words ++ [endMark file (byteLength (before ++ cs))] ∧
      Tiles (before ++ cs) offset words := by
  induction h generalizing before with
  | @last offset gap hgap =>
    subst hoffset
    have hslice := slice?_append before gap []
    rw [List.append_nil, ← byteLength_append] at hslice
    exact ⟨[], by rw [List.nil_append, byteLength_append], .nil hslice hgap.readAs⟩
  | @word offset gap text rest kind value tokens hgap hne hkind htext hrest ih =>
    subst hoffset
    have hwhole : before ++ gap ++ text ++ rest = before ++ (gap ++ (text ++ rest)) := by
      simp only [List.append_assoc]
    obtain ⟨words, rfl, htiles⟩ := @ih (before ++ gap ++ text)
      (by simp only [byteLength_append]) (by rwa [hwhole])
    have hgapSlice := slice?_append before gap (text ++ rest)
    have htextSlice := slice?_append (before ++ gap) text rest
    rw [← List.append_assoc, hwhole, byteLength_append] at htextSlice
    rw [hwhole] at htiles ⊢
    have hne := byteLength_pos hne
    simp only [byteLength_append] at hsize
    -- the places of the word are as they are written
    have hfirst := Position.toNat_offset_at (n := byteLength before + byteLength gap) (by omega) file
    have hstop := Position.toNat_offset_at
      (n := byteLength before + byteLength gap + byteLength text) (by omega) file
    refine ⟨_ :: words, rfl, .cons hfirst hstop hgapSlice hgap.readAs htextSlice htext.readAs hkind
      ?_ htiles⟩
    simp only [byteLength_append]
    omega

/-- The tokens of a text that fits end with the one end mark, which stands at the end. The
other tokens are parts of the text in their order, each of which is read by itself as that
token, and what lies around them is read as nothing. -/
theorem tokenize_tiles {file source : String} {tokens : List Token}
    (hsize : byteLength source.toList < Nat.pow 2 32) (h : tokenize file source = .ok tokens) :
    ∃ words, tokens = words ++ [endMark file (byteLength source.toList)] ∧
      (endMark file (byteLength source.toList)).startByte = byteLength source.toList ∧
      (endMark file (byteLength source.toList)).stopByte = byteLength source.toList ∧
      Tiles source.toList 0 words := by
  have htiled : Tiled file 0 source.toList tokens := tiled_of_tokenizeFrom h
  obtain ⟨words, rfl, htiles⟩ := @Tiled.tiles _ _ _ _ htiled [] rfl hsize
  have hend := Position.toNat_offset_at hsize file
  exact ⟨words, rfl, hend, hend, htiles⟩

/-- A word, a string literal with an accented letter, and a comment. -/
theorem tokenize_tiles_commented :
    let source := "a \"é\" // x"
    let word : Token := ⟨.identifier, "a", .at "f" 0, .at "f" 1⟩
    let text : Token := ⟨.string, "é", .at "f" 2, .at "f" 6⟩
    byteLength source.toList < Nat.pow 2 32 ∧
      tokenize "f" source = .ok [word, text, endMark "f" 11] ∧
      Tiles source.toList 0 [word, text] := by
  intro source word text
  have hsize : byteLength source.toList < Nat.pow 2 32 := by decide
  have htokens : (tokenize "f" source).toOption = some [word, text, endMark "f" 11] := by
    decide +kernel
  have hrun : tokenize "f" source = .ok [word, text, endMark "f" 11] := by
    cases h : tokenize "f" source with
    | ok tokens =>
      rw [h] at htokens
      exact congrArg Except.ok (Option.some.inj htokens)
    | error e =>
      rw [h] at htokens
      cases htokens
  obtain ⟨words, hwords, -, -, htiles⟩ := tokenize_tiles hsize hrun
  obtain rfl : [word, text] = words := by simpa using congrArg List.dropLast hwords
  exact ⟨hsize, hrun, htiles⟩

end Token

end ExprCheck
