/-
ExprCheck.Proofs.Grammar — the grammar of expressions, and that it is what is read.

The grammar is the usual one, with a nonterminal for each step of binding and left
recursion for operators of one step:

    or       ::= and      | or '||' and
    and      ::= relation | and '&&' relation
    relation ::= sum      | relation ('==' '!=' '<' '<=' '>' '>=') sum
    sum      ::= product  | sum ('+' '-' '|' '^') product
    product  ::= unary    | product ('*' '/' '%' '&' '<<' '>>') unary
    unary    ::= call     | ('-' '!') unary
    call     ::= primary  | call '(' [or (',' or)* [',']] ')'
    primary  ::= number | string | true | false | nil | name | '(' or (',' or)* ')'

The parser has no such rules, only powers. `grip` is what ties the two together: how
tightly the front of what is left holds the expression before it. A phrase is read to
its end and no further because what follows grips it less than the phrase binds.

`read_of_derives` is the one direction: a phrase is read as its tree. `read_sound` is
the other: what is read is a phrase of the grammar, or else the span is used up and
the tree is `Broken`, which is to say that its value is the failed one.
-/
import ExprCheck.Proofs.Evaluates

namespace ExprCheck

open Check

/-! ## 1. The grammar -/

/-- The nonterminals, the loosest first. -/
inductive Nonterminal where
  | or
  | and
  | relation
  | sum
  | product
  | unary
  | call
  | primary
  deriving DecidableEq, Repr

namespace Nonterminal

/-- How tightly phrases of the nonterminal hold together. -/
def rank : Nonterminal → Nat
  | .or => 1
  | .and => 2
  | .relation => 3
  | .sum => 4
  | .product => 5
  | .unary => 6
  | .call => 7
  | .primary => 8

/-- The nonterminal a step tighter. -/
def next? : Nonterminal → Option Nonterminal
  | .or => some .and
  | .and => some .relation
  | .relation => some .sum
  | .sum => some .product
  | .product => some .unary
  | .unary => some .call
  | .call => some .primary
  | .primary => none

/-- The operators between a phrase of the nonterminal and one that is tighter. -/
def operators : Nonterminal → List Token.Kind
  | .or => [.or]
  | .and => [.and]
  | .relation => [.equals, .notEquals, .less, .lessEquals, .greater, .greaterEquals]
  | .sum => [.plus, .dash, .pipe, .caret]
  | .product => [.star, .slash, .percent, .amper, .shiftLeft, .shiftRight]
  | .unary | .call | .primary => []

theorem rank_of_next? {n m : Nonterminal} (h : n.next? = some m) : m.rank = n.rank + 1 := by
  cases n <;> cases h <;> rfl

theorem exists_next? {n : Nonterminal} (h : n.rank < 8) : ∃ m, n.next? = some m := by
  cases n <;> first | exact ⟨_, rfl⟩ | (simp [rank] at h)

theorem rank_injective {n m : Nonterminal} (h : n.rank = m.rank) : n = m := by
  cases n <;> cases m <;> first | rfl | simp [rank] at h

end Nonterminal

mutual

/-- The tokens are a phrase of the nonterminal, with this tree. -/
inductive Derives : Nonterminal → List Token → Expr → Prop
  | tighter {n m ts e} (hn : n.next? = some m) (h : Derives m ts e) : Derives n ts e
  | binary {n m ts left t us right} (hn : n.next? = some m) (hl : Derives n ts left)
      (ht : t.kind ∈ n.operators) (hr : Derives m us right) :
      Derives n (ts ++ t :: us) (.binary left t right)
  | prefixed {t ts e} (ht : t.kind = .dash ∨ t.kind = .not) (h : Derives .unary ts e) :
      Derives .unary (t :: ts) (.prefixed t e)
  | call {ts f opening us args closing} (hf : Derives .call ts f)
      (ho : opening.kind = .openParen) (ha : DerivesArgs us args)
      (hc : closing.kind = .closeParen) :
      Derives .call (ts ++ opening :: (us ++ [closing])) (.call f opening args none)
  | number {t} (ht : t.kind = .number) : Derives .primary [t] (.number t)
  | literal {t} (ht : t.kind ∈ [.string, .trueWord, .falseWord, .nilWord]) :
      Derives .primary [t] (.literal t)
  | name {t} (ht : t.kind = .identifier) : Derives .primary [t] (.name t)
  | group {opening us items closing} (ho : opening.kind = .openParen)
      (hi : DerivesItems us items) (hc : closing.kind = .closeParen) :
      Derives .primary (opening :: (us ++ [closing])) (.group opening items none)

/-- The tokens are one expression or more, with commas between them. -/
inductive DerivesItems : List Token → List Expr → Prop
  | one {ts e} (h : Derives .or ts e) : DerivesItems ts [e]
  | more {ts e t us es} (h : Derives .or ts e) (ht : t.kind = .comma)
      (hs : DerivesItems us es) : DerivesItems (ts ++ t :: us) (e :: es)

/-- The same, or nothing at all, and a comma at the end or none. -/
inductive DerivesArgs : List Token → List Expr → Prop
  | none : DerivesArgs [] []
  | items {ts es} (h : DerivesItems ts es) : DerivesArgs ts es
  | comma {ts es t} (h : DerivesItems ts es) (ht : t.kind = .comma) :
      DerivesArgs (ts ++ [t]) es

end

/-- A phrase is also a looser one. -/
theorem Derives.loosen {n m : Nonterminal} {ts : List Token} {e : Expr} (h : Derives m ts e)
    (hr : n.rank ≤ m.rank) : Derives n ts e := by
  induction hk : m.rank - n.rank generalizing n with
  | zero =>
    have hnm : n.rank = m.rank := by omega
    exact Nonterminal.rank_injective hnm ▸ h
  | succ k ih =>
    have hm : m.rank ≤ 8 := by cases m <;> decide
    obtain ⟨n', hn⟩ := Nonterminal.exists_next? (n := n) (by omega)
    have hrank := Nonterminal.rank_of_next? hn
    exact .tighter hn (ih (by omega) (by omega))

/-- No phrase is empty, and none starts with a closing bracket. -/
theorem Derives.starts {n : Nonterminal} {ts : List Token} {e : Expr} :
    Derives n ts e → ∃ t us, ts = t :: us ∧ t.kind ≠ .closeParen
  | .tighter _ h => h.starts
  | .binary _ hl _ _ => by
    obtain ⟨t, us, rfl, ht⟩ := hl.starts
    exact ⟨t, _, rfl, ht⟩
  | .prefixed ht _ => ⟨_, _, rfl, by rcases ht with ht | ht <;> simp [ht]⟩
  | .call hf _ _ _ => by
    obtain ⟨t, us, rfl, ht⟩ := hf.starts
    exact ⟨t, _, rfl, ht⟩
  | .number ht | .name ht => ⟨_, _, rfl, by simp [ht]⟩
  | .literal ht => ⟨_, _, rfl, by rintro h; simp [h] at ht⟩
  | .group ho _ _ => ⟨_, _, rfl, by simp [ho]⟩

theorem Derives.not_closing {n : Nonterminal} {ts : List Token} {e : Expr}
    (h : Derives n ts e) (after : List Token) :
    ∀ t us, ts ++ after = t :: us → t.kind ≠ .closeParen := by
  obtain ⟨t, us, rfl, ht⟩ := h.starts
  rintro _ _ ⟨⟩
  exact ht

/-- An argument in front of arguments. -/
theorem DerivesArgs.cons {ts us : List Token} {e : Expr} {t : Token} {es : List Expr}
    (h : Derives .or ts e) (ht : t.kind = .comma) (hs : DerivesArgs us es) :
    DerivesArgs (ts ++ t :: us) (e :: es) := by
  cases hs with
  | none => exact .comma (.one h) ht
  | items hs => exact .items (.more h ht hs)
  | comma hs ht' =>
    have := DerivesArgs.comma (.more h ht hs) ht'
    simpa using this

/-! ## 2. The parser over plain lists

What is left of a span comes with the proof that it is no longer than the span. Here
it is without. -/

/-- How tightly the first token holds the expression before it. -/
def grip : List Token → Nat
  | [] => 0
  | t :: _ =>
    match Operator.ofKind? t.kind with
    | some op => op.power.rank
    | none => if t.kind = .openParen then Power.call.rank else 0

/-- What is read with the power is a phrase of this nonterminal. -/
def Power.phrase : Power → Nonterminal
  | .whole => .or
  | .or => .and
  | .and => .relation
  | .relation => .sum
  | .sum => .product
  | .product | .prefixed | .call => .unary

theorem Power.rank_phrase_le (p : Power) : p.phrase.rank ≤ 6 := by
  cases p <;> decide

theorem Power.rank_phrase {p : Power} (h : p.rank < 6 ∨ p.phrase.rank < 6) :
    p.phrase.rank = p.rank + 1 := by
  cases p <;> first | rfl | simp [rank, phrase, Nonterminal.rank] at h

theorem Operator.rank_power_lt (op : Operator) : op.power.rank < 6 := by
  cases op with
  | logical op | compare op | arithmetic op | bitwise op | shift op => cases op <;> decide
  | divide | remainder => decide

/-- The operators of a nonterminal are those with its power. -/
theorem mem_operators {n : Nonterminal} {k : Token.Kind} :
    k ∈ n.operators ↔ ∃ op, Operator.ofKind? k = some op ∧ op.power.rank = n.rank := by
  cases k <;> simp only [Operator.ofKind?, reduceCtorEq, false_and, exists_false, iff_false,
    Option.some.injEq, exists_eq_left'] <;> cases n <;> decide

namespace Expr

variable (last : Position)

def read (p : Power) (ts : List Token) : Expr × List Token :=
  ((parseExpr last p ts).1, (parseExpr last p ts).2.1)

def readOperand (ts : List Token) : Expr × List Token :=
  ((parseOperand last ts).1, (parseOperand last ts).2.1)

def readTail (p : Power) (left : Expr) (ts : List Token) : Expr × List Token :=
  ((parseTail last p left ts).1, (parseTail last p left ts).2.1)

def readItems (ts : List Token) : List Expr × Option Stop × List Token :=
  ((parseItems last ts).1, (parseItems last ts).2.1, (parseItems last ts).2.2.1)

def readArgs (ts : List Token) : List Expr × Option Stop × List Token :=
  ((parseArgs last ts).1, (parseArgs last ts).2.1, (parseArgs last ts).2.2.1)

/-- What comes after an item of a list, where `more` reads the items after a comma. -/
def afterItem (more : List Token → List Expr × Option Stop × List Token) :
    Expr × List Token → List Expr × Option Stop × List Token
  | (item, []) => ([item], some (.at last []), [])
  | (item, t :: rest) =>
    if t.kind = .comma then (item :: (more rest).1, (more rest).2.1, (more rest).2.2)
    else if t.kind = .closeParen then ([item], none, rest)
    else ([item], some (.at last (t :: rest)), [])

theorem length_read_le (p : Power) (ts : List Token) :
    (read last p ts).2.length ≤ ts.length := (parseExpr last p ts).2.2

theorem length_readOperand_le (ts : List Token) :
    (readOperand last ts).2.length ≤ ts.length := (parseOperand last ts).2.2

theorem length_readArgs_le (ts : List Token) :
    (readArgs last ts).2.2.length ≤ ts.length := (parseArgs last ts).2.2.2

variable {last}

theorem read_eq (p : Power) (ts : List Token) :
    read last p ts = readTail last p (readOperand last ts).1 (readOperand last ts).2 := by
  unfold read
  rw [parseExpr]
  rfl

theorem readOperand_nil : readOperand last [] = (.invalid (.at last []), []) := by
  unfold readOperand
  rw [parseOperand]
  rfl

theorem readOperand_cons (t : Token) (ts : List Token) :
    readOperand last (t :: ts) =
      match t.kind with
      | .number => (.number t, ts)
      | .string | .trueWord | .falseWord | .nilWord => (.literal t, ts)
      | .identifier => (.name t, ts)
      | .openParen => (.group t (readItems last ts).1 (readItems last ts).2.1,
          (readItems last ts).2.2)
      | .dash | .not => (.prefixed t (read last .prefixed ts).1, (read last .prefixed ts).2)
      | _ => (.invalid (.at last (t :: ts)), []) := by
  unfold readOperand
  rw [parseOperand]
  cases t.kind <;> rfl

/-- Reading stops where the grip is not tighter than the power. -/
theorem readTail_stop {p : Power} {ts : List Token} (h : grip ts ≤ p.rank) (left : Expr) :
    readTail last p left ts = (left, ts) := by
  unfold readTail
  cases ts with
  | nil =>
    rw [parseTail]
    rfl
  | cons t ts =>
    unfold grip at h
    rw [parseTail]
    dsimp only
    split
    · rename_i op hop
      simp only [hop] at h
      rw [if_neg (show ¬ p < op.power from Nat.not_lt.2 h)]
      rfl
    · rename_i hop
      simp only [hop] at h
      rw [if_neg]
      · rfl
      · rintro ⟨ho, hlt⟩
        rw [if_pos ho] at h
        exact Nat.not_lt.2 h hlt

theorem readTail_operator {p : Power} {t : Token} {op : Operator}
    (hop : Operator.ofKind? t.kind = some op) (hlt : p.rank < op.power.rank) (left : Expr)
    (ts : List Token) :
    readTail last p left (t :: ts) =
      readTail last p (.binary left t (read last op.power ts).1) (read last op.power ts).2 := by
  unfold readTail
  rw [parseTail]
  dsimp only
  rw [hop]
  dsimp only
  rw [if_pos (show p < op.power from hlt)]
  rfl

theorem readTail_call {p : Power} {t : Token} (ho : t.kind = .openParen)
    (hlt : p.rank < Power.call.rank) (left : Expr) (ts : List Token) :
    readTail last p left (t :: ts) =
      readTail last p (.call left t (readArgs last ts).1 (readArgs last ts).2.1)
        (readArgs last ts).2.2 := by
  unfold readTail
  rw [parseTail]
  dsimp only
  have hop : Operator.ofKind? t.kind = none := by rw [ho]; rfl
  rw [hop]
  dsimp only
  rw [if_pos ⟨ho, show p < .call from hlt⟩]
  rfl

theorem readItems_eq (ts : List Token) :
    readItems last ts = afterItem last (readItems last) (read last .whole ts) := by
  unfold readItems read afterItem
  rw [parseItems]
  split
  · rename_i h
    simp [h]
  · rename_i h
    simp only [h]
    split
    · rfl
    · split <;> rfl

theorem readArgs_closed {t : Token} (ht : t.kind = .closeParen) (ts : List Token) :
    readArgs last (t :: ts) = ([], none, ts) := by
  unfold readArgs
  rw [parseArgs]
  simp [ht]

theorem readArgs_eq {ts : List Token} (h : ∀ t us, ts = t :: us → t.kind ≠ .closeParen) :
    readArgs last ts = afterItem last (readArgs last) (read last .whole ts) := by
  have hhead : ¬ ts.head?.any (·.kind = .closeParen) := by
    cases ts with
    | nil => simp
    | cons t us => simpa using h t us rfl
  unfold readArgs read afterItem
  rw [parseArgs, if_neg hhead]
  split
  · rename_i h
    simp [h]
  · rename_i h
    simp only [h]
    split
    · rfl
    · split <;> rfl

/-! ## 3. Phrases are read -/

theorem grip_of_not_joining {t : Token} (ht : t.kind = .comma ∨ t.kind = .closeParen)
    (ts : List Token) : grip (t :: ts) = 0 := by
  rcases ht with ht | ht <;> simp [grip, ht, Operator.ofKind?]

mutual

/-- A phrase in front of what does not grip it is read as its tree. -/
theorem read_of_derives {p : Power} (hp : p ≠ .call) {n : Nonterminal} {ts after : List Token}
    {e : Expr} (hn : p.phrase.rank ≤ n.rank) (ha : grip after ≤ n.rank) :
    Derives n ts e → read last p (ts ++ after) = readTail last p e after
  | .tighter hnext h => by
    have hrank := Nonterminal.rank_of_next? hnext
    exact read_of_derives hp (by omega) (by omega) h
  | @Derives.binary _ m us left t vs right hnext hl ht hr => by
    obtain ⟨op, hop, hpower⟩ := mem_operators.1 ht
    have hrank := Nonterminal.rank_of_next? hnext
    have hgrip : grip (t :: (vs ++ after)) = n.rank := by simp [grip, hop, hpower]
    have hop6 := op.rank_power_lt
    have hlt : p.rank < op.power.rank := by
      have := Power.rank_phrase (p := p) (.inr (by omega))
      omega
    -- the right phrase is tighter than the operator, and what follows is not
    have hright : read last op.power (vs ++ after) = (right, after) := by
      have hphrase := Power.rank_phrase (.inl hop6)
      have hcall : op.power ≠ .call := fun h => absurd hop6 (by simp [h, Power.rank])
      rw [read_of_derives hcall (by omega) (by omega) hr, readTail_stop (by omega)]
    rw [List.append_assoc, List.cons_append, read_of_derives hp hn (by omega) hl,
      readTail_operator hop hlt, hright]
  | @Derives.prefixed t us operand ht h => by
    -- a call after the operand would be part of it
    have hoperand : read last .prefixed (us ++ after) = (operand, after) := by
      rw [read_of_derives (by simp) (by decide) ha h, readTail_stop ha]
    rw [List.cons_append, read_eq, readOperand_cons]
    rcases ht with ht | ht <;> simp only [ht, hoperand]
  | @Derives.call us f opening vs args closing hf ho hargs hc => by
    have hgrip : ∀ rest, grip (opening :: rest) = 7 := by
      intro rest
      simp [grip, ho, Operator.ofKind?, Power.rank]
    have hlt : p.rank < Power.call.rank := by
      cases p <;> first | decide | exact absurd rfl hp
    rw [List.append_assoc, List.cons_append, read_of_derives hp hn (Nat.le_of_eq (hgrip _)) hf,
      readTail_call ho hlt, List.append_assoc, List.singleton_append,
      readArgs_of_derives hc after hargs]
  | .number ht | .name ht => by
    rw [List.singleton_append, read_eq, readOperand_cons]
    simp only [ht]
  | .literal ht => by
    rw [List.singleton_append, read_eq, readOperand_cons]
    simp only [List.mem_cons, List.not_mem_nil, or_false] at ht
    rcases ht with ht | ht | ht | ht <;> simp only [ht]
  | .group ho hi hc => by
    rw [List.cons_append, read_eq, readOperand_cons]
    simp only [ho, List.append_assoc, List.singleton_append, readItems_of_derives hc after hi]

theorem readItems_of_derives {ts : List Token} {items : List Expr} {closing : Token}
    (hc : closing.kind = .closeParen) (after : List Token) :
    DerivesItems ts items → readItems last (ts ++ closing :: after) = (items, none, after)
  | .one h => by
    have hgrip := grip_of_not_joining (.inr hc) after
    rw [readItems_eq, read_of_derives (by simp) (by decide) (by omega) h,
      readTail_stop (by omega)]
    simp [afterItem, hc]
  | @DerivesItems.more us e t vs es h ht hs => by
    have hgrip := grip_of_not_joining (.inl ht) (vs ++ closing :: after)
    rw [List.append_assoc, List.cons_append, readItems_eq,
      read_of_derives (by simp) (by decide) (by omega) h, readTail_stop (by omega)]
    simp [afterItem, ht, readItems_of_derives hc after hs]

/-- Items are read as arguments, with a comma after them or without. -/
theorem readArgs_of_items {ts : List Token} {items : List Expr} {t : Token}
    {us after : List Token}
    (hafter : t.kind = .closeParen ∧ us = after ∨
      t.kind = .comma ∧ readArgs last us = ([], none, after)) :
    DerivesItems ts items → readArgs last (ts ++ t :: us) = (items, none, after)
  | @DerivesItems.one _ e h => by
    have hgrip := grip_of_not_joining (hafter.elim (.inr ·.1) (.inl ·.1)) us
    have hread : read last .whole (ts ++ t :: us) = (e, t :: us) := by
      rw [read_of_derives (by simp) (by decide) (by omega) h, readTail_stop (by omega)]
    rw [readArgs_eq (h.not_closing _), hread]
    rcases hafter with ⟨ht, rfl⟩ | ⟨ht, hus⟩
    · simp [afterItem, ht]
    · simp [afterItem, ht, hus]
  | @DerivesItems.more vs e comma ws es h hcomma hs => by
    have hgrip := grip_of_not_joining (.inl hcomma) (ws ++ t :: us)
    have hread : read last .whole (vs ++ comma :: (ws ++ t :: us)) =
        (e, comma :: (ws ++ t :: us)) := by
      rw [read_of_derives (by simp) (by decide) (by omega) h, readTail_stop (by omega)]
    rw [List.append_assoc, List.cons_append, readArgs_eq (h.not_closing _), hread]
    simp [afterItem, hcomma, readArgs_of_items hafter hs]

theorem readArgs_of_derives {ts : List Token} {args : List Expr} {closing : Token}
    (hc : closing.kind = .closeParen) (after : List Token) :
    DerivesArgs ts args → readArgs last (ts ++ closing :: after) = (args, none, after)
  | .none => readArgs_closed hc after
  | .items h => readArgs_of_items (.inl ⟨hc, rfl⟩) h
  | .comma h ht => by
    rw [List.append_assoc, List.singleton_append]
    exact readArgs_of_items (.inr ⟨ht, readArgs_closed hc after⟩) h

end

/-! ## 4. What is read is a phrase, or broken -/

/-- The tree ends in what could not be read. -/
inductive Broken : Expr → Prop
  | invalid {stop} : Broken (.invalid stop)
  | trailing {e stop} : Broken (.trailing e stop)
  | group {opening items stop} : Broken (.group opening items (some stop))
  | call {callee opening args stop} : Broken (.call callee opening args (some stop))
  | prefixed {operator operand} (h : Broken operand) : Broken (.prefixed operator operand)
  | binary {left operator right} (h : Broken right) : Broken (.binary left operator right)

/-- After `before`, the tokens are read as a phrase that what is left grips with at most
`k`; or they are used up, and the tree is broken. -/
def Reads (before ts : List Token) (n : Nonterminal) (k : Nat) (r : Expr × List Token) : Prop :=
  (∃ us, ts = us ++ r.2 ∧ Derives n (before ++ us) r.1 ∧ grip r.2 ≤ k) ∨ (r.2 = [] ∧ r.1.Broken)

/-- The tokens are read as a list up to the closing bracket; or they are used up, and
the bracket is missing. -/
def ReadsList (derives : List Token → List Expr → Prop) (ts : List Token)
    (r : List Expr × Option Stop × List Token) : Prop :=
  (r.2.1 = none ∧ ∃ us closing, ts = us ++ closing :: r.2.2 ∧ closing.kind = .closeParen ∧
    derives us r.1) ∨
    (r.2.2 = [] ∧ ∃ stop, r.2.1 = some stop)

theorem Reads.prepend {before us ts rest : List Token} {n : Nonterminal} {k : Nat}
    {r : Expr × List Token} (h : Reads (before ++ us) rest n k r) (hts : ts = us ++ rest) :
    Reads before ts n k r := by
  rcases h with ⟨vs, rfl, hd, hgrip⟩ | h
  · exact .inl ⟨us ++ vs, by simp [hts], by simpa using hd, hgrip⟩
  · exact .inr h

/-- An item is read, and then the items after it. -/
theorem ReadsList.afterItem {derives : List Token → List Expr → Prop}
    (hone : ∀ {ts e}, Derives .or ts e → derives ts [e])
    (hmore : ∀ {ts e t us es}, Derives .or ts e → t.kind = .comma → derives us es →
      derives (ts ++ t :: us) (e :: es))
    {ts : List Token} {r : Expr × List Token} (hr : Reads [] ts .or 0 r)
    {more : List Token → List Expr × Option Stop × List Token}
    (ih : ∀ rest, rest.length < ts.length → ReadsList derives rest (more rest)) :
    ReadsList derives ts (afterItem last more r) := by
  obtain ⟨item, _ | ⟨t, rest⟩⟩ := r
  · exact .inr ⟨rfl, _, rfl⟩
  rcases hr with ⟨us, rfl, hitem, -⟩ | ⟨hnil, -⟩
  · unfold Expr.afterItem
    dsimp only at hitem ⊢
    split
    · rename_i ht
      rcases ih rest (by simp; omega) with ⟨hclosed, vs, closing, hrest, hc, hs⟩ | hopen
      · exact .inl ⟨hclosed, us ++ t :: vs, closing, by simpa using hrest, hc,
          hmore hitem ht hs⟩
      · exact .inr hopen
    · split
      · rename_i hc
        exact .inl ⟨rfl, us, t, rfl, hc, hone hitem⟩
      · exact .inr ⟨rfl, _, rfl⟩
  · cases hnil

/-- The operators of one power are those of a nonterminal, and it takes phrases with
that power on the right. -/
theorem exists_nonterminal (op : Operator) :
    ∃ n : Nonterminal, n.rank = op.power.rank ∧ n.next? = some op.power.phrase := by
  rcases op with (_ | _) | _ | (_ | _ | _) | _ | _ | (_ | _ | _) | _
  all_goals first
    | exact ⟨.or, rfl, rfl⟩
    | exact ⟨.and, rfl, rfl⟩
    | exact ⟨.relation, rfl, rfl⟩
    | exact ⟨.sum, rfl, rfl⟩
    | exact ⟨.product, rfl, rfl⟩

theorem grip_le (ts : List Token) : grip ts ≤ Power.call.rank := by
  unfold grip
  split
  · exact Nat.zero_le _
  · split
    · rename_i op _
      exact Nat.le_succ_of_le (Nat.le_of_lt op.rank_power_lt)
    · split <;> decide

/-- What grips a phrase tighter than a power is an operator or the bracket of a call. -/
theorem of_grip {p : Power} {ts : List Token} (h : ¬grip ts ≤ p.rank) :
    ∃ t us, ts = t :: us ∧
      ((∃ op, Operator.ofKind? t.kind = some op ∧ grip ts = op.power.rank) ∨
        (t.kind = .openParen ∧ grip ts = Power.call.rank)) := by
  cases ts with
  | nil => exact absurd (Nat.zero_le _) h
  | cons t us =>
    refine ⟨t, us, rfl, ?_⟩
    cases hop : Operator.ofKind? t.kind with
    | some op => exact .inl ⟨op, rfl, by simp [grip, hop]⟩
    | none =>
      by_cases ho : t.kind = .openParen
      · exact .inr ⟨ho, by simp only [grip, hop, if_pos ho]⟩
      · exact absurd (by simp [grip, hop, ho]) h

mutual

theorem read_sound (p : Power) (ts : List Token) :
    Reads [] ts p.phrase p.rank (read last p ts) := by
  have hlength := length_readOperand_le last ts
  rw [read_eq]
  rcases readOperand_sound ts with ⟨n, hn, ⟨us, hts, hd, hgrip⟩ | ⟨hnil, hbroken⟩⟩
  · have hp := p.rank_phrase_le
    exact (readTail_sound p hd (by omega) hgrip).prepend hts
  · rw [hnil, readTail_stop (Nat.zero_le _)]
    exact .inr ⟨rfl, hbroken⟩
termination_by 4 * ts.length + 2

/-- An operand is at least a phrase with a prefix. -/
theorem readOperand_sound (ts : List Token) :
    ∃ n : Nonterminal, 6 ≤ n.rank ∧ Reads [] ts n n.rank (readOperand last ts) := by
  cases hts : ts with
  | nil =>
    rw [readOperand_nil]
    exact ⟨.primary, by decide, .inr ⟨rfl, .invalid⟩⟩
  | cons t rest =>
    -- a phrase of one token
    have one : ∀ e, Derives .primary [t] e → ∃ n : Nonterminal, 6 ≤ n.rank ∧
        Reads [] (t :: rest) n n.rank (e, rest) :=
      fun e h => ⟨.primary, by decide, .inl ⟨[t], rfl, h, Nat.le_succ_of_le (grip_le rest)⟩⟩
    have hlength : ts.length = rest.length + 1 := by simp [hts]
    have withPrefix : t.kind = .dash ∨ t.kind = .not → ∃ n : Nonterminal, 6 ≤ n.rank ∧
        Reads [] (t :: rest) n n.rank
          (.prefixed t (read last .prefixed rest).1, (read last .prefixed rest).2) := by
      intro ht
      refine ⟨.unary, by decide, ?_⟩
      rcases read_sound .prefixed rest with ⟨us, hrest, hoperand, hgrip⟩ | ⟨hnil, hbroken⟩
      · exact .inl ⟨t :: us, by simpa using hrest, .prefixed ht hoperand, hgrip⟩
      · exact .inr ⟨hnil, .prefixed hbroken⟩
    rw [readOperand_cons]
    split
    · rename_i hk
      exact one _ (.number hk)
    · rename_i hk
      exact one _ (.literal (by simp [hk]))
    · rename_i hk
      exact one _ (.literal (by simp [hk]))
    · rename_i hk
      exact one _ (.literal (by simp [hk]))
    · rename_i hk
      exact one _ (.literal (by simp [hk]))
    · rename_i hk
      exact one _ (.name hk)
    · rename_i hk
      refine ⟨.primary, by decide, ?_⟩
      rcases readItems_sound rest with ⟨hclosed, us, closing, hrest, hc, hitems⟩ | ⟨hnil, stop, hs⟩
      · rw [hclosed]
        exact .inl ⟨t :: (us ++ [closing]), by simpa using hrest, .group hk hitems hc,
          Nat.le_succ_of_le (grip_le _)⟩
      · rw [hs]
        exact .inr ⟨hnil, .group⟩
    · rename_i hk
      exact withPrefix (.inl hk)
    · rename_i hk
      exact withPrefix (.inr hk)
    · exact ⟨.primary, by decide, .inr ⟨rfl, .invalid⟩⟩
termination_by 4 * ts.length + 1

/-- To a phrase, what follows adds operators and calls as long as they grip it. -/
theorem readTail_sound (p : Power) {before ts : List Token} {left : Expr} {n : Nonterminal}
    (hleft : Derives n before left) (hp : p.phrase.rank ≤ n.rank) (hgrip : grip ts ≤ n.rank) :
    Reads before ts p.phrase p.rank (readTail last p left ts) := by
  by_cases hstop : grip ts ≤ p.rank
  · rw [readTail_stop hstop]
    exact .inl ⟨[], rfl, by simpa using hleft.loosen hp, hstop⟩
  -- what follows takes the phrase as its left side, which it binds tightly enough to be
  obtain ⟨t, rest, hts, hjoins⟩ := of_grip hstop
  have hlength : ts.length = rest.length + 1 := by simp [hts]
  rcases hjoins with ⟨op, hop, hg⟩ | ⟨ho, hg⟩
  · have hshorter := length_read_le last op.power rest
    have hop6 := op.rank_power_lt
    have hphrase := Power.rank_phrase (p := p) (.inl (by omega))
    rw [hts, readTail_operator hop (by omega)]
    rcases read_sound op.power rest with ⟨us, hrest, hright, hgrip'⟩ | ⟨hnil, hbroken⟩
    · obtain ⟨m, hm, hnext⟩ := exists_nonterminal op
      have ht : t.kind ∈ m.operators := mem_operators.2 ⟨op, hop, hm.symm⟩
      have hbinary := Derives.binary hnext (hleft.loosen (by omega)) ht hright
      exact (readTail_sound p hbinary (by omega) (by omega)).prepend (by simpa using hrest)
    · -- after a broken operand there is nothing left to add
      rw [hnil, readTail_stop (Nat.zero_le _)]
      exact .inr ⟨rfl, .binary hbroken⟩
  · have hshorter := length_readArgs_le last rest
    have hcall : Nonterminal.call.rank = Power.call.rank := rfl
    rw [hts, readTail_call ho (by omega)]
    rcases readArgs_sound rest with ⟨hclosed, us, closing, hrest, hc, hargs⟩ | ⟨hnil, stop, hs⟩
    · have hcalled := Derives.call (hleft.loosen (by omega)) ho hargs hc
      have hphrase := p.rank_phrase_le
      rw [hclosed]
      refine (readTail_sound p hcalled ?_ (grip_le _)).prepend (by simpa using hrest)
      exact Nat.le_succ_of_le hphrase
    · rw [hnil, hs, readTail_stop (Nat.zero_le _)]
      exact .inr ⟨rfl, .call⟩
termination_by 4 * ts.length

theorem readItems_sound (ts : List Token) : ReadsList DerivesItems ts (readItems last ts) := by
  rw [readItems_eq]
  exact .afterItem .one .more (read_sound .whole ts) fun rest _ => readItems_sound rest
termination_by 4 * ts.length + 3

theorem readArgs_sound (ts : List Token) : ReadsList DerivesArgs ts (readArgs last ts) := by
  by_cases hclosing : ∃ t us, ts = t :: us ∧ t.kind = .closeParen
  · obtain ⟨t, us, rfl, ht⟩ := hclosing
    rw [readArgs_closed ht]
    exact .inl ⟨rfl, [], t, rfl, ht, .none⟩
  · rw [readArgs_eq fun t us hts ht => hclosing ⟨t, us, hts, ht⟩]
    exact .afterItem (fun h => .items (.one h)) .cons (read_sound .whole ts)
      fun rest _ => readArgs_sound rest
termination_by 4 * ts.length + 3

end

/-! ## 5. Spans -/

/-- What is left over after the expression makes the tree a broken one. -/
def whole (last : Position) : Expr × List Token → Expr
  | (e, []) => e
  | (e, t :: rest) => .trailing e (.at last (t :: rest))

theorem parse?_cons {ts : List Token} {t : Token} {us : List Token}
    (h : Token.withoutEof ts = t :: us) :
    ∃ last ∈ t :: us,
      parse? ts = some (whole last.position (read last.position .whole (t :: us))) := by
  have hlast : (t :: us).getLastD t ∈ t :: us := by
    simpa only [List.getLastD_cons] using List.getLastD_mem_cons (l := us) (a := t)
  unfold parse?
  rw [h]
  refine ⟨(t :: us).getLastD t, hlast, ?_⟩
  unfold read
  dsimp only
  split
  · rename_i hrest
    simp only [hrest]
    rfl
  · rename_i rest _ hne hrest
    simp only [hrest]
    cases rest with
    | nil => exact (hne rfl).elim
    | cons => rfl

theorem parse?_eq_none {ts : List Token} : parse? ts = none ↔ Token.withoutEof ts = [] := by
  cases h : Token.withoutEof ts with
  | nil => simp [parse?, h]
  | cons t us =>
    obtain ⟨last, -, hparse⟩ := parse?_cons h
    simp [hparse]

/-- A sentence is read to its end. -/
theorem read_of_sentence {ts : List Token} {e : Expr} (h : Derives .or ts e) :
    read last .whole ts = (e, []) := by
  have hread : read last .whole (ts ++ []) = readTail last .whole e [] :=
    read_of_derives (by simp) (by decide) (Nat.zero_le _) h
  rwa [List.append_nil, readTail_stop (Nat.zero_le _)] at hread

theorem parse?_of_derives {ts : List Token} {e : Expr} (h : Derives .or (Token.withoutEof ts) e) :
    parse? ts = some e := by
  obtain ⟨t, us, hts, -⟩ := h.starts
  obtain ⟨last, -, hparse⟩ := parse?_cons hts
  rw [hparse, ← hts, read_of_sentence h]
  rfl

/-- What is read of a span is the tree of a sentence, or it is broken. -/
theorem parse?_sound {ts : List Token} {e : Expr} (h : parse? ts = some e) :
    Derives .or (Token.withoutEof ts) e ∨ e.Broken := by
  cases hts : Token.withoutEof ts with
  | nil => simp [parse?_eq_none.2 hts] at h
  | cons t us =>
    obtain ⟨last, -, hparse⟩ := parse?_cons hts
    obtain rfl := Option.some.inj (hparse.symm.trans h)
    have hread : Reads [] (t :: us) .or 0 (read last.position .whole (t :: us)) :=
      read_sound .whole _
    generalize read last.position .whole (t :: us) = r at hread
    obtain ⟨e, _ | ⟨u, rest⟩⟩ := r
    · rcases hread with ⟨vs, hvs, hd, -⟩ | ⟨-, hbroken⟩
      · rw [hvs, List.append_nil]
        exact .inl hd
      · exact .inr hbroken
    · exact .inr .trailing

end Expr

/-- A sentence has one tree. -/
theorem Derives.unique {ts : List Token} {e e' : Expr} (h : Derives .or ts e)
    (h' : Derives .or ts e') : e = e' := by
  have hread : Expr.read .null .whole ts = (e, []) := Expr.read_of_sentence h
  have hread' : Expr.read .null .whole ts = (e', []) := Expr.read_of_sentence h'
  exact congrArg Prod.fst (hread.symm.trans hread')

/-- The value of a span that is a sentence, but for an end mark, is that of its tree. -/
theorem Derives.evaluate_span {ts : List Token} {e : Expr}
    (h : Derives .or (Token.withoutEof ts) e) (env : Env) : evaluate env ts = e.eval env := by
  simp only [evaluate, Expr.parse?_of_derives h]

/-! ## 6. Values -/

@[simp] theorem Value.isFailed_failed : Value.failed.isFailed = true := rfl

/-- A broken tree has the failed value. -/
theorem Evaluates.eq_failed_of_broken {env : Env} {e : Expr} {v : Value} {new : List Diagnostic}
    (h : Evaluates env e v new) (hb : e.Broken) : v = .failed := by
  induction hb generalizing v new with
  | invalid | trailing => cases h; rfl
  | group =>
    cases h with
    | unclosedGroup _ hv => exact ((Value.unclosedGroup_meets _ _).of_runs hv).1
  | call =>
    cases h with
    | unclosedCall _ _ hv => exact ((Value.unclosedCall_meets _ _).of_runs hv).1
  | prefixed _ ih =>
    cases h with
    | prefixFailed h => exact ih h
    | prefixed h hf => simp [ih h] at hf
  | binary _ ih =>
    cases h with
    | binaryFailed => rfl
    | binary _ hr _ hfr => simp [ih hr] at hfr

theorem Evaluates.failed_of_broken {env : Env} {e : Expr} {v : Value} {new : List Diagnostic}
    (h : Evaluates env e v new) (hb : e.Broken) : v.isFailed := by
  rw [h.eq_failed_of_broken hb]
  exact Value.isFailed_failed

/-- The value of a span is that of its tree, if it is a sentence of the grammar, and
the failed value if it is none; and then something is reported. -/
theorem evaluate_by_grammar (env : Env) (hexact : env.scope.Exact)
    (hfailed : env.scope.NoneFailed) (ts : List Token) :
    (∀ tree, Derives .or (Token.withoutEof ts) tree →
      (∀ other, Derives .or (Token.withoutEof ts) other → other = tree) ∧
      ∃ v new, Runs (evaluate env ts) v new ∧
        ∀ w more, Evaluates env tree w more ↔ w = v ∧ more = new) ∧
    ((∀ tree, ¬Derives .or (Token.withoutEof ts) tree) →
      ∃ new, Runs (evaluate env ts) .failed new ∧ new ≠ []) := by
  obtain ⟨v, new, hrun, hv⟩ := (evaluate_meets env ts).runs (fun h => h hexact)
  constructor
  · intro tree htree
    refine ⟨fun other h => h.unique htree, v, new, hrun, fun w more => ?_⟩
    have heval : evaluate env ts = tree.eval env := by
      simp only [evaluate, Expr.parse?_of_derives htree]
    rw [Expr.evaluates_iff_runs, ← heval]
    constructor
    · exact fun h => h.unique hrun
    · rintro ⟨rfl, rfl⟩
      exact hrun
  · intro hnone
    cases hv with
    | missing => exact ⟨_, hrun, by simp⟩
    | tree hparse h =>
      rcases Expr.parse?_sound hparse with hd | hbroken
      · exact absurd hd (hnone _)
      · obtain ⟨rfl, hnew⟩ := h.reported hfailed (h.failed_of_broken hbroken)
        exact ⟨_, hrun, hnew⟩

/-- A difference of two constants. -/
theorem evaluate_by_grammar_difference :
    let x := Token.synthetic .identifier "x"
    let minus := Token.synthetic .dash "-"
    let env : Env := ⟨Scope.empty.declareConst "x" (Ty.number .u8) (.signed 3), .default⟩
    env.scope.Exact ∧ env.scope.NoneFailed ∧
      (∃ v new, Runs (evaluate env [x, minus, x]) v new ∧
        Evaluates env (.binary (.name x) minus (.name x)) v new) ∧
      ∃ new, Runs (evaluate env []) .failed new ∧ new ≠ [] := by
  intro x minus env
  have hexact : env.scope.Exact := Scope.all_empty.insert "x" fun c hc _ => by
    cases hc
    rfl
  have hfailed : env.scope.NoneFailed := Scope.all_empty.insert "x" rfl
  have hx : Derives .product [x] (.name x) :=
    .tighter rfl (.tighter rfl (.tighter rfl (.name rfl)))
  have hsum : Derives .sum [x, minus, x] (.binary (.name x) minus (.name x)) :=
    .binary rfl (.tighter rfl hx) (by decide) hx
  have htree : Derives .or [x, minus, x] (.binary (.name x) minus (.name x)) :=
    .tighter rfl (.tighter rfl (.tighter rfl hsum))
  obtain ⟨-, v, new, hrun, hv⟩ :=
    (evaluate_by_grammar env hexact hfailed [x, minus, x]).1 _ htree
  refine ⟨hexact, hfailed, ⟨v, new, hrun, (hv v new).2 ⟨rfl, rfl⟩⟩, ?_⟩
  refine (evaluate_by_grammar env hexact hfailed []).2 fun tree h => ?_
  obtain ⟨t, us, hnil, -⟩ := h.starts
  cases hnil

end ExprCheck
