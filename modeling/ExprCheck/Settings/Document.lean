/-
ExprCheck.Settings.Document — JSON documents, byte by byte.

The grammar is the strict one: no blanks but space, tab and the two line ends, no
comma before a closing bracket, no leading zeros. Bytes inside a string may be
anything but control characters. Whether they make up a text is a question of its
own, so a string of a document has its text only if it has one.
-/

namespace ExprCheck

/-- A JSON document. Nothing is kept of a number but that it is one. -/
inductive Document where
  | null
  | bool (b : Bool)
  | number
  | string (text : Option String)
  | array (items : List Document)
  | object (members : List (Option String × Document))

namespace Document

/-! ## 1. Bytes -/

def byte (c : Char) : UInt8 := c.toNat.toUInt8

def isBlank (b : UInt8) : Bool :=
  b == byte ' ' || b == byte '\t' || b == byte '\n' || b == byte '\r'

def isDigit (b : UInt8) : Bool := byte '0' ≤ b && b ≤ byte '9'

/-- The value of a hexadecimal digit. -/
def hexValue? (b : UInt8) : Option Nat :=
  if isDigit b then some (b.toNat - '0'.toNat)
  else if byte 'a' ≤ b && b ≤ byte 'f' then some (b.toNat - 'a'.toNat + 10)
  else if byte 'A' ≤ b && b ≤ byte 'F' then some (b.toNat - 'A'.toNat + 10)
  else none

/-- The bytes after the blanks at the front. -/
def skipBlanks (bs : List UInt8) : List UInt8 := bs.dropWhile isBlank

theorem length_skipBlanks_le (bs : List UInt8) : (skipBlanks bs).length ≤ bs.length :=
  (List.dropWhile_suffix _).length_le

/-! ## 2. Strings -/

/-- A piece of a string: a byte as it is, or a unit of sixteen bits written in
hexadecimal. -/
inductive Piece where
  | byte (b : UInt8)
  | unit (n : Nat)

/-- The byte that a backslash and a letter stand for. -/
def escape? (b : UInt8) : Option UInt8 :=
  if b == byte '"' || b == byte '\\' || b == byte '/' then some b
  else if b == byte 'b' then some 8
  else if b == byte 'f' then some 12
  else if b == byte 'n' then some 10
  else if b == byte 'r' then some 13
  else if b == byte 't' then some 9
  else none

/-- The unit that four hexadecimal digits write. -/
def unit? (a b c d : UInt8) : Option Nat := do
  return ((← hexValue? a) * 16 + (← hexValue? b)) * 256 + (← hexValue? c) * 16 + (← hexValue? d)

/-- The pieces of a string up to its closing quote, and the bytes after it. -/
def scanString : List UInt8 → Option (List Piece × List UInt8)
  | [] => none
  | b :: bs =>
    if b == byte '"' then some ([], bs)
    else if b < 0x20 then none
    else if b != byte '\\' then (scanString bs).map fun (ps, rest) => (.byte b :: ps, rest)
    else
      match bs with
      | [] => none
      | e :: bs =>
        if e == byte 'u' then
          match bs with
          | a :: b :: c :: d :: bs => do
            let n ← unit? a b c d
            let (ps, rest) ← scanString bs
            return (.unit n :: ps, rest)
          | _ => none
        else do
          let b ← escape? e
          let (ps, rest) ← scanString bs
          return (.byte b :: ps, rest)

/-- The bytes of the text that pieces make up. A unit that is half of a pair has
to have its other half behind it. -/
def pieceBytes? : List Piece → Option (List UInt8)
  | [] => some []
  | .byte b :: ps => (pieceBytes? ps).map (b :: ·)
  | .unit n :: ps =>
    if 0xd800 ≤ n ∧ n < 0xdc00 then
      match ps with
      | .unit m :: ps =>
        if 0xdc00 ≤ m ∧ m < 0xe000 then
          (pieceBytes? ps).map
            (String.utf8EncodeChar (Char.ofNat (0x10000 + (n - 0xd800) * 0x400 + (m - 0xdc00))) ++ ·)
        else none
      | _ => none
    else if 0xdc00 ≤ n ∧ n < 0xe000 then none
    else (pieceBytes? ps).map (String.utf8EncodeChar (Char.ofNat n) ++ ·)

/-- The text that pieces make up, if they make up one. -/
def pieceText? (ps : List Piece) : Option String :=
  (pieceBytes? ps).bind fun bs => String.fromUTF8? ⟨bs.toArray⟩

theorem scanString_length {bs rest : List UInt8} {ps : List Piece}
    (h : scanString bs = some (ps, rest)) : rest.length < bs.length := by
  fun_induction scanString bs generalizing ps with
  | _ => simp_all [Option.bind_eq_some_iff, Option.map_eq_some_iff] <;> grind

/-! ## 3. Numbers -/

/-- The bytes after at least one digit. -/
def skipDigits? : List UInt8 → Option (List UInt8)
  | b :: bs => if isDigit b then some (bs.dropWhile isDigit) else none
  | [] => none

/-- The bytes after a whole number, which has no leading zero. -/
def skipWhole? : List UInt8 → Option (List UInt8)
  | b :: bs =>
    if b == byte '0' then
      if bs.head?.any isDigit then none else some bs
    else skipDigits? (b :: bs)
  | [] => none

/-- The bytes after a fraction, where there is one. -/
def skipFraction? : List UInt8 → Option (List UInt8)
  | b :: bs => if b == byte '.' then skipDigits? bs else some (b :: bs)
  | [] => some []

/-- The bytes after an exponent, where there is one. -/
def skipExponent? : List UInt8 → Option (List UInt8)
  | e :: bs =>
    if e == byte 'e' || e == byte 'E' then
      match bs with
      | s :: ds => if s == byte '+' || s == byte '-' then skipDigits? ds else skipDigits? bs
      | [] => none
    else some (e :: bs)
  | [] => some []

/-- The bytes after a number. -/
def skipNumber? (bs : List UInt8) : Option (List UInt8) := do
  let whole ← skipWhole? (if bs.head? = some (byte '-') then bs.tail else bs)
  skipExponent? (← skipFraction? whole)

theorem skipDigits?_length {bs rest : List UInt8} (h : skipDigits? bs = some rest) :
    rest.length < bs.length := by
  unfold skipDigits? at h
  split at h
  · split at h
    · cases h
      exact Nat.lt_succ_of_le (List.dropWhile_suffix _).length_le
    · simp at h
  · simp at h

theorem skipWhole?_length {bs rest : List UInt8} (h : skipWhole? bs = some rest) :
    rest.length < bs.length := by
  unfold skipWhole? at h
  split at h
  · split at h
    · split at h <;> simp_all
    · exact skipDigits?_length h
  · simp at h

theorem skipFraction?_length {bs rest : List UInt8} (h : skipFraction? bs = some rest) :
    rest.length ≤ bs.length := by
  unfold skipFraction? at h
  split at h
  · split at h
    · have := skipDigits?_length h
      simp only [List.length_cons]
      omega
    · simp_all
  · simp_all

theorem skipExponent?_length {bs rest : List UInt8} (h : skipExponent? bs = some rest) :
    rest.length ≤ bs.length := by
  unfold skipExponent? at h
  split at h
  · split at h
    · split at h
      · split at h
        all_goals
          have := skipDigits?_length h
          simp only [List.length_cons] at *
          omega
      · simp at h
    · simp_all
  · simp_all

theorem skipNumber?_length {bs rest : List UInt8} (h : skipNumber? bs = some rest) :
    rest.length < bs.length := by
  obtain ⟨whole, hw, h⟩ := Option.bind_eq_some_iff.1 h
  obtain ⟨fraction, hf, he⟩ := Option.bind_eq_some_iff.1 h
  have h₁ := skipWhole?_length hw
  have h₂ := skipFraction?_length hf
  have h₃ := skipExponent?_length he
  split at h₁
  · simp only [List.length_tail] at h₁
    omega
  · omega

/-! ## 4. Documents -/

/-- What is left after reading from the front of `bs`. -/
abbrev Rest (bs : List UInt8) := { rest : List UInt8 // rest.length < bs.length }

/-- What is left of a part of `bs` is left of the whole. -/
def Rest.widen {bs part : List UInt8} (h : part.length ≤ bs.length) (rest : Rest part) : Rest bs :=
  ⟨rest.1, Nat.lt_of_lt_of_le rest.2 h⟩

/-- The document that a word at the front of `b :: bs` names. -/
def readWord? (b : UInt8) (bs : List UInt8) : Option (Document × Rest (b :: bs)) :=
  [("ull", byte 'n', Document.null), ("rue", byte 't', .bool true),
    ("alse", byte 'f', .bool false)].findSome? fun (word, first, value) =>
      if first = b then
        let w := word.toList.map byte
        if w.isPrefixOf bs then
          some (value, ⟨bs.drop w.length, Nat.lt_succ_of_le (by simp)⟩)
        else none
      else none

mutual

/-- Reads a document from the front, without blanks before it. -/
def readValue? (bs : List UInt8) : Option (Document × Rest bs) :=
  match bs with
  | [] => none
  | b :: bs =>
    if b == byte '"' then
      match h : scanString bs with
      | some (ps, rest) =>
        some (.string (pieceText? ps), ⟨rest, Nat.lt_succ_of_lt (scanString_length h)⟩)
      | none => none
    else if b == byte '[' then
      match h : skipBlanks bs with
      | [] => none
      | c :: rest =>
        have hle : rest.length < bs.length :=
          Nat.lt_of_lt_of_le (by simp [h]) (length_skipBlanks_le bs)
        if c == byte ']' then some (.array [], ⟨rest, Nat.lt_succ_of_lt hle⟩)
        else do
          let (items, after) ← readItems? (c :: rest)
          return (.array items, after.widen (by simp only [List.length_cons]; omega))
    else if b == byte '\x7b' then
      match h : skipBlanks bs with
      | [] => none
      | c :: rest =>
        have hle : rest.length < bs.length :=
          Nat.lt_of_lt_of_le (by simp [h]) (length_skipBlanks_le bs)
        if c == byte '\x7d' then some (.object [], ⟨rest, Nat.lt_succ_of_lt hle⟩)
        else do
          let (members, after) ← readMembers? (c :: rest)
          return (.object members, after.widen (by simp only [List.length_cons]; omega))
    else if b == byte '-' || isDigit b then
      match h : skipNumber? (b :: bs) with
      | some rest => some (.number, ⟨rest, skipNumber?_length h⟩)
      | none => none
    else readWord? b bs
termination_by 2 * bs.length

/-- Reads the items of an array, at least one, up to its closing bracket. -/
def readItems? (bs : List UInt8) : Option (List Document × Rest bs) := do
  let (item, rest) ← readValue? bs
  match h : skipBlanks rest.1 with
  | [] => none
  | c :: rest' =>
    have hle : rest'.length < bs.length :=
      Nat.lt_trans (Nat.lt_of_lt_of_le (by simp [h]) (length_skipBlanks_le rest.1)) rest.2
    if c == byte ']' then return ([item], ⟨rest', hle⟩)
    else if c == byte ',' then
      have hle' := length_skipBlanks_le rest'
      let (items, rest'') ← readItems? (skipBlanks rest')
      return (item :: items, rest''.widen (by omega))
    else none
termination_by 2 * bs.length + 1

/-- Reads the members of an object, at least one, up to its closing bracket. -/
def readMembers? (bs : List UInt8) : Option (List (Option String × Document) × Rest bs) :=
  match bs with
  | [] => none
  | q :: bs =>
    if q != byte '"' then none
    else
      match h : scanString bs with
      | none => none
      | some (ps, rest) =>
        have hlt := scanString_length h
        match h : skipBlanks rest with
        | [] => none
        | colon :: rest' =>
          have hlt' : rest'.length < rest.length :=
            Nat.lt_of_lt_of_le (by simp [h]) (length_skipBlanks_le rest)
          have hle := length_skipBlanks_le rest'
          if colon != byte ':' then none
          else do
            let (value, ⟨after, hafter⟩) ← readValue? (skipBlanks rest')
            match h : skipBlanks after with
            | [] => none
            | c :: after' =>
              have hlt'' : after'.length < after.length :=
                Nat.lt_of_lt_of_le (by simp [h]) (length_skipBlanks_le after)
              if c == byte '\x7d' then
                return ([(pieceText? ps, value)], ⟨after', by simp only [List.length_cons]; omega⟩)
              else if c == byte ',' then
                have hle' := length_skipBlanks_le after'
                let (members, rest) ← readMembers? (skipBlanks after')
                return ((pieceText? ps, value) :: members,
                  rest.widen (by simp only [List.length_cons]; omega))
              else none
termination_by 2 * bs.length
decreasing_by all_goals (simp only [List.length_cons]; omega)

end

/-- Reads a whole text: one document with nothing but blanks around it. -/
def read? (bs : List UInt8) : Option Document := do
  let (value, rest) ← readValue? (skipBlanks bs)
  if (skipBlanks rest.1).isEmpty then return value else none

end Document

end ExprCheck
