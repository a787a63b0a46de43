/-
ExprCheck.Token.Scan — from a text to its tokens.

`scan` reads one stretch from the front of a text: a word, a number, a string
literal, a run of blanks, a comment or a mark. Every stretch is as long as its
rule allows, and which rule applies is settled by the first characters alone.
`tokenize` repeats it and ends the list with an end mark; a character with which
no stretch starts stops it.
-/
import ExprCheck.Text.Blank
import ExprCheck.Text.Digits
import ExprCheck.Token.Basic

namespace ExprCheck.Token

open Text (isDigit isHexDigit digitValue)

/-! ## 1. Character classes -/

/-- A letter of ASCII or the underscore. -/
def isWordStart (c : Char) : Bool :=
  ('a' ≤ c && c ≤ 'z') || ('A' ≤ c && c ≤ 'Z') || c == '_'

def isWordChar (c : Char) : Bool := isWordStart c || isDigit c

/-! ## 2. The extent of a stretch

Each function gives the stretch at the front of a text and what follows it. -/

/-- A fraction: a point with at least one digit after it. -/
def scanFraction : List Char → List Char × List Char
  | '.' :: d :: cs =>
    if isDigit d then
      ('.' :: d :: cs.takeWhile isDigit, cs.dropWhile isDigit)
    else ([], '.' :: d :: cs)
  | cs => ([], cs)

/-- A sign, if there is one. -/
def scanSign : List Char → List Char × List Char
  | c :: cs => if c = '+' ∨ c = '-' then ([c], cs) else ([], c :: cs)
  | [] => ([], [])

/-- An exponent: `e` or `E`, a sign or none, and at least one digit. -/
def scanExponent : List Char → List Char × List Char
  | e :: cs =>
    let (sign, ds) := scanSign cs
    if (e = 'e' ∨ e = 'E') ∧ ds.head?.any isDigit then
      (e :: sign ++ ds.takeWhile isDigit, ds.dropWhile isDigit)
    else ([], e :: cs)
  | [] => ([], [])

/-- A number without base mark: digits, then a fraction and an exponent where
there are such. -/
def scanDecimal (cs : List Char) : List Char × List Char :=
  let (fraction, cs₁) := scanFraction (cs.dropWhile isDigit)
  let (exponent, cs₂) := scanExponent cs₁
  (cs.takeWhile isDigit ++ fraction ++ exponent, cs₂)

/-- A number: `0x` with at least one hexadecimal digit, or a decimal one. -/
def scanNumber : List Char → List Char × List Char
  | '0' :: x :: cs =>
    let digits := cs.takeWhile isHexDigit
    if (x = 'x' ∨ x = 'X') ∧ ¬ digits.isEmpty then
      ('0' :: x :: digits, cs.dropWhile isHexDigit)
    else scanDecimal ('0' :: x :: cs)
  | cs => scanDecimal cs

/-- The inside of a string literal up to its closing quote, and what follows the
quote. A backslash takes the character after it along, which must not be a line
feed. There is no such stretch if the quote never comes. -/
def scanString : List Char → Option (List Char × List Char)
  | [] => none
  | '"' :: rest => some ([], rest)
  | '\\' :: c :: cs =>
    if c = '\n' then none
    else (scanString cs).map fun (inside, rest) => ('\\' :: c :: inside, rest)
  | c :: cs =>
    if c = '\\' then none
    else (scanString cs).map fun (inside, rest) => (c :: inside, rest)

/-- What the character after a backslash stands for, where that is one character. -/
def escapeMeaning : Char → Option Char
  | 'n' => some '\n'
  | 't' => some '\t'
  | 'r' => some '\r'
  | '\\' => some '\\'
  | '"' => some '"'
  | '0' => some '\x00'
  | _ => none

/-- The text that the inside of a string literal stands for. A backslash before
a character that means nothing special stays; `\x` takes up to two hexadecimal
digits and stays as it is when there are none. -/
def unescape : List Char → List Char
  | [] => []
  | [c] => [c]
  | c :: d :: cs =>
    if c ≠ '\\' then c :: unescape (d :: cs)
    else if d ≠ 'x' then
      match escapeMeaning d with
      | some e => e :: unescape cs
      | none => c :: unescape (d :: cs)
    else
      match cs.takeWhile isHexDigit with
      | [] => c :: d :: unescape cs
      | [a] => Char.ofNat (digitValue a) :: unescape (cs.drop 1)
      | a :: b :: _ => Char.ofNat (16 * digitValue a + digitValue b) :: unescape (cs.drop 2)
termination_by cs => cs.length
decreasing_by all_goals (simp only [List.length_cons, List.length_drop]; omega)

/-- The marks of the language. Where one is the beginning of another, the longer
one comes first. -/
def marks : List (Kind × List Char) := [
  (.openBracket, ['[']), (.closeBracket, [']']), (.openCurly, ['\x7b']), (.closeCurly, ['\x7d']),
  (.openParen, ['(']), (.closeParen, [')']), (.equals, ['=', '=']), (.notEquals, ['!', '=']),
  (.not, ['!']), (.assignment, ['=']), (.shiftLeft, ['<', '<']), (.shiftRight, ['>', '>']),
  (.lessEquals, ['<', '=']), (.less, ['<']), (.greaterEquals, ['>', '=']), (.greater, ['>']),
  (.or, ['|', '|']), (.and, ['&', '&']), (.pipe, ['|']), (.amper, ['&']), (.caret, ['^']),
  (.tilde, ['~']), (.dot, ['.']), (.semicolon, [';']), (.colon, [':']), (.comma, [',']),
  (.plus, ['+']), (.dash, ['-']), (.slash, ['/']), (.star, ['*']), (.percent, ['%'])]

/-- The first mark of the table that the text begins with. -/
def scanMark (cs : List Char) : Option (Kind × List Char) :=
  marks.find? (·.2.isPrefixOf cs)

/-! ## 3. One stretch -/

/-- A stretch at the front of a text: the word it makes, if it makes one, its
characters, and the text after it. -/
structure Stretch where
  word : Option (Kind × String)
  text : List Char
  rest : List Char

/-- A word is an identifier unless the language reserves it. -/
def wordKind (spelling : String) : Kind := (Kind.ofWord? spelling).getD .identifier

/-- The stretch at the front of a text, if one starts there. -/
def scan : List Char → Option Stretch
  | [] => none
  | c :: cs =>
    if isWordStart c then
      let text := (c :: cs).takeWhile isWordChar
      let spelling := String.ofList text
      some ⟨some (wordKind spelling, spelling), text, (c :: cs).dropWhile isWordChar⟩
    else if isDigit c then
      let (text, rest) := scanNumber (c :: cs)
      some ⟨some (.number, String.ofList text), text, rest⟩
    else if Text.isBlank c then
      some ⟨none, (c :: cs).takeWhile Text.isBlank, (c :: cs).dropWhile Text.isBlank⟩
    else if c = '"' then
      (scanString cs).map fun (inside, rest) =>
        ⟨some (.string, String.ofList (unescape inside)), '"' :: inside ++ ['"'], rest⟩
    else if c = '/' ∧ cs.head? = some '/' then
      some ⟨none, (c :: cs).takeWhile (· ≠ '\n'), (c :: cs).dropWhile (· ≠ '\n')⟩
    else
      (scanMark (c :: cs)).map fun (kind, mark) =>
        ⟨some (kind, String.ofList mark), mark, (c :: cs).drop mark.length⟩

/-! ## 4. Nothing is lost

A stretch and the text after it make up the text it was read from. -/

theorem scanFraction_append (cs : List Char) :
    (scanFraction cs).1 ++ (scanFraction cs).2 = cs := by
  unfold scanFraction
  split
  · split <;> simp
  · rfl

theorem scanSign_append (cs : List Char) : (scanSign cs).1 ++ (scanSign cs).2 = cs := by
  unfold scanSign
  split
  · split <;> rfl
  · rfl

theorem scanExponent_append (cs : List Char) :
    (scanExponent cs).1 ++ (scanExponent cs).2 = cs := by
  unfold scanExponent
  split
  · rename_i cs
    dsimp only
    split
    · simp [scanSign_append cs]
    · rfl
  · rfl

theorem scanDecimal_append (cs : List Char) :
    (scanDecimal cs).1 ++ (scanDecimal cs).2 = cs := by
  simp only [scanDecimal, List.append_assoc]
  rw [scanExponent_append, scanFraction_append, List.takeWhile_append_dropWhile]

theorem scanNumber_append (cs : List Char) :
    (scanNumber cs).1 ++ (scanNumber cs).2 = cs := by
  unfold scanNumber
  split
  · dsimp only
    split
    · simp
    · exact scanDecimal_append _
  · exact scanDecimal_append _

theorem scanString_append {cs inside rest : List Char}
    (h : scanString cs = some (inside, rest)) : inside ++ '"' :: rest = cs := by
  fun_induction scanString cs generalizing inside with
  | case1 => simp at h
  | case2 => simp_all
  | case3 => simp at h
  | case4 c cs hc ih =>
    obtain ⟨⟨i, r⟩, hi, he⟩ := Option.map_eq_some_iff.1 h
    obtain ⟨rfl, rfl⟩ := Prod.mk.inj he
    simp [ih hi]
  | case5 => simp at h
  | case6 c cs _ _ _ ih =>
    obtain ⟨⟨i, r⟩, hi, he⟩ := Option.map_eq_some_iff.1 h
    obtain ⟨rfl, rfl⟩ := Prod.mk.inj he
    simp [ih hi]

theorem scanMark_append {cs mark : List Char} {kind : Kind}
    (h : scanMark cs = some (kind, mark)) : mark ++ cs.drop mark.length = cs := by
  have hp := List.find?_some h
  exact List.prefix_iff_eq_append.1 (List.isPrefixOf_iff_prefix.1 hp)

theorem scan_append {cs : List Char} {s : Stretch} (h : scan cs = some s) :
    s.text ++ s.rest = cs := by
  unfold scan at h
  split at h
  · simp at h
  · rename_i c cs
    split at h
    · cases h; exact List.takeWhile_append_dropWhile
    split at h
    · cases h; exact scanNumber_append _
    split at h
    · cases h; exact List.takeWhile_append_dropWhile
    split at h
    · rename_i hc
      obtain ⟨⟨i, r⟩, hi, rfl⟩ := Option.map_eq_some_iff.1 h
      simp [← scanString_append hi, hc]
    split at h
    · cases h; exact List.takeWhile_append_dropWhile
    · obtain ⟨⟨k, m⟩, hm, rfl⟩ := Option.map_eq_some_iff.1 h
      exact scanMark_append hm

theorem scanNumber_ne_nil {c : Char} (hc : isDigit c = true) (cs : List Char) :
    (scanNumber (c :: cs)).1 ≠ [] := by
  have hd : (scanDecimal (c :: cs)).1 ≠ [] := by simp [scanDecimal, hc]
  unfold scanNumber
  split
  · rename_i heq
    dsimp only
    split
    · simp
    · exact heq ▸ hd
  · exact hd

/-- A stretch holds at least one character. -/
theorem scan_ne_nil {cs : List Char} {s : Stretch} (h : scan cs = some s) : s.text ≠ [] := by
  unfold scan at h
  split at h
  · simp at h
  · rename_i c cs
    split at h
    · rename_i hc
      cases h
      simp [isWordChar, hc]
    split at h
    · rename_i hc
      cases h
      exact scanNumber_ne_nil hc cs
    split at h
    · rename_i hc
      cases h
      simp [hc]
    split at h
    · obtain ⟨⟨i, r⟩, -, rfl⟩ := Option.map_eq_some_iff.1 h
      simp
    split at h
    · rename_i hc
      cases h
      simp [hc.1]
    · obtain ⟨⟨k, m⟩, hm, rfl⟩ := Option.map_eq_some_iff.1 h
      have : ∀ x ∈ marks, x.2 ≠ [] := by decide
      exact this _ (List.mem_of_find?_eq_some hm)

/-- What follows a stretch is shorter than the text it was read from. -/
theorem scan_rest_length {cs : List Char} {s : Stretch} (h : scan cs = some s) :
    s.rest.length < cs.length := by
  have h₁ := congrArg List.length (scan_append h)
  have h₂ := List.length_pos_iff.2 (scan_ne_nil h)
  simp only [List.length_append] at h₁
  omega

/-! ## 5. The whole text -/

/-- A character with which no stretch starts, and where it stands. -/
structure Unrecognised where
  char : Char
  position : Position
  deriving DecidableEq, Repr

/-- The tokens of a text that starts `offset` bytes into `file`. -/
def tokenizeFrom (file : String) (offset : Nat) (cs : List Char) :
    Except Unrecognised (List Token) :=
  match cs with
  | [] => .ok [⟨.eof, "EOF", .at file offset, .at file offset⟩]
  | c :: cs =>
    match _h : scan (c :: cs) with
    | none => .error ⟨c, .at file offset⟩
    | some s => do
      let stop := offset + byteLength s.text
      let tokens ← tokenizeFrom file stop s.rest
      match s.word with
      | some (kind, value) => return ⟨kind, value, .at file offset, .at file stop⟩ :: tokens
      | none => return tokens
termination_by cs.length
decreasing_by exact scan_rest_length _h

/-- The tokens of a text, an end mark last. -/
def tokenize (file source : String) : Except Unrecognised (List Token) :=
  tokenizeFrom file 0 source.toList

end ExprCheck.Token
