/-
ExprCheck.Proofs.Cuts — cutting a span loses nothing.

A span is cut at the separators that have no more brackets opened than closed in front of
them (`cuts`). Brackets need not match: the depth may go below zero, and it may never come
back to zero. `Cut` says what the parts are then, one rule for each way in which a part can
end: with the span, at a separator that is the end of the span and is dropped, or at one with
more parts behind it. All that is said of the parts is an induction over it.

A part that is cut again is read from depth zero, while at its place it may have been read from
below that. It is never read from above, because cuts are where the depth is at most zero. So
brackets that kept a separator from cutting keep it from cutting again
(`cuts_eq_nil_of_le`).
-/
import ExprCheck.Token.Split

namespace ExprCheck.Token

/-! ## 1. Depth, and where a span is cut -/

/-- The brackets open behind a token. -/
def Kind.depthAfter (depth : Int) (k : Kind) : Int :=
  if k.isOpening then depth + 1 else if k.isClosing then depth - 1 else depth

/-- The brackets open behind a span, fewer than none if it closes more than were open. -/
def depthAfter (depth : Int) (ts : List Token) : Int :=
  ts.foldl (fun depth t => t.kind.depthAfter depth) depth

/-- The separators at which a span is cut that is read with so many brackets open. -/
def cuts (separator : Kind) : (depth : Int) → List Token → List Token
  | _, [] => []
  | depth, t :: ts =>
    let others := cuts separator (t.kind.depthAfter depth) ts
    if t.kind = separator ∧ depth ≤ 0 then t :: others else others

@[simp] theorem depthAfter_nil (depth : Int) : depthAfter depth [] = depth := rfl

@[simp] theorem depthAfter_append (depth : Int) (ts us : List Token) :
    depthAfter depth (ts ++ us) = depthAfter (depthAfter depth ts) us := List.foldl_append

theorem cuts_append (separator : Kind) (depth : Int) (ts us : List Token) :
    cuts separator depth (ts ++ us) =
      cuts separator depth ts ++ cuts separator (depthAfter depth ts) us := by
  induction ts generalizing depth with
  | nil => rfl
  | cons t ts ih =>
    simp only [List.cons_append, cuts, ih]
    split <;> rfl

/-- With more brackets open there are no more cuts. -/
theorem cuts_eq_nil_of_le {separator : Kind} {depth depth' : Int} (hle : depth ≤ depth')
    {ts : List Token} (h : cuts separator depth ts = []) : cuts separator depth' ts = [] := by
  induction ts generalizing depth depth' with
  | nil => rfl
  | cons t ts ih =>
    have hle' : t.kind.depthAfter depth ≤ t.kind.depthAfter depth' := by
      unfold Kind.depthAfter
      split
      · omega
      · split <;> omega
    rw [cuts] at h ⊢
    split at h
    · cases h
    · rename_i hcut
      rw [if_neg fun hcut' => hcut ⟨hcut'.1, Int.le_trans hle hcut'.2⟩]
      exact ih hle' h

/-- The span ends in this token, and is cut at it. -/
def EndsInCut (separator : Kind) (depth : Int) (ts : List Token) (t : Token) : Prop :=
  ∃ before, ts = before ++ [t] ∧ t.kind = separator ∧ depthAfter depth before ≤ 0

/-- Where a span ends is settled by what is left of it. -/
theorem endsInCut_append {separator : Kind} {depth : Int} (ts : List Token) {us : List Token}
    (hne : us ≠ []) (t : Token) :
    EndsInCut separator depth (ts ++ us) t ↔ EndsInCut separator (depthAfter depth ts) us t := by
  obtain ⟨before, last, rfl⟩ : ∃ before last, us = before ++ [last] :=
    ⟨_, _, (List.dropLast_concat_getLast hne).symm⟩
  constructor
  · rintro ⟨front, hfront, ht, hd⟩
    rw [← List.append_assoc] at hfront
    obtain ⟨rfl, hlast⟩ := List.append_inj' hfront rfl
    obtain rfl := List.singleton_inj.1 hlast
    exact ⟨before, rfl, ht, by rwa [depthAfter_append] at hd⟩
  · rintro ⟨front, hfront, ht, hd⟩
    exact ⟨ts ++ front, by rw [hfront, List.append_assoc], ht, by rwa [depthAfter_append]⟩

theorem cuts_ne_nil {separator : Kind} {depth : Int} {ts : List Token} {t : Token}
    (h : EndsInCut separator depth ts t) : cuts separator depth ts ≠ [] := by
  obtain ⟨before, rfl, ht, hd⟩ := h
  simp [cuts_append, cuts, ht, hd]

/-- The parts put together again, with one of the separators behind each of them as far as
there are separators. -/
def joined : (parts : List (List Token)) → (separators : List Token) → List Token
  | [], _ => []
  | part :: parts, [] => part ++ joined parts []
  | part :: parts, t :: ts => part ++ t :: joined parts ts

/-- The places of the separators that end an empty part. -/
def emptyEnds (parts : List (List Token)) (separators : List Token) : List Position :=
  ((parts.zip separators).filter (·.1.isEmpty)).map (·.2.position)

/-! ## 2. Parts, one after the other -/

/-- Read with so many brackets open, the span is made of the parts with the separators between
them. A separator behind the last part is dropped where every part has to hold something. -/
inductive Cut (separator : Kind) (mustHold : Bool) : (depth : Int) → (ts : List Token) →
    (parts : List (List Token)) → (separators : List Token) → (dropped : Option Token) → Prop
  | last {depth : Int} {part : List Token} (hpart : cuts separator depth part = [])
      (hne : mustHold = true → part ≠ []) : Cut separator mustHold depth part [part] [] none
  | final {depth : Int} {part : List Token} {t : Token} (hpart : cuts separator depth part = [])
      (ht : t.kind = separator) (hd : depthAfter depth part ≤ 0) (hmust : mustHold = true) :
      Cut separator mustHold depth (part ++ [t]) [part] [] (some t)
  | more {depth : Int} {part ts : List Token} {t : Token} {parts : List (List Token)}
      {separators : List Token} {dropped : Option Token} (hpart : cuts separator depth part = [])
      (ht : t.kind = separator) (hd : depthAfter depth part ≤ 0)
      (h : Cut separator mustHold (depthAfter depth part) ts parts separators dropped) :
      Cut separator mustHold depth (part ++ t :: ts) (part :: parts) (t :: separators) dropped

section

variable {separator : Kind} (ho : separator.isOpening = false) (hc : separator.isClosing = false)
include ho hc

theorem Kind.depthAfter_separator (depth : Int) : separator.depthAfter depth = depth := by
  simp [Kind.depthAfter, ho, hc]

/-- The cutter at a token. -/
theorem splitFrom_cons (mustHold : Bool) (depth : Int) (part : List Token) (t : Token)
    (ts : List Token) :
    splitFrom separator mustHold depth part (t :: ts) =
      if t.kind = separator ∧ depth ≤ 0 then
        (splitFrom separator mustHold depth [] ts).add mustHold part t
      else splitFrom separator mustHold (t.kind.depthAfter depth) (part ++ [t]) ts := by
  rw [splitFrom, Kind.depthAfter]
  by_cases ht : t.kind = separator
  · simp [ht, ho, hc]
  · simp only [ht, and_false, false_and, if_false]
    split
    · rfl
    · split <;> rfl

/-- What the cutter makes of a span, when it has read a part of it without a cut. -/
theorem splitFrom_cut (mustHold : Bool) (depth : Int) (part ts : List Token)
    (hpart : cuts separator depth part = []) (hne : mustHold = true → part ++ ts ≠ []) :
    ∃ parts separators dropped,
      Cut separator mustHold depth (part ++ ts) parts separators dropped ∧
      splitFrom separator mustHold (depthAfter depth part) part ts =
        ⟨parts, if mustHold then emptyEnds parts (separators ++ dropped.toList) else []⟩ := by
  induction ts generalizing depth part with
  | nil =>
    rw [List.append_nil] at hne ⊢
    refine ⟨[part], [], none, .last hpart hne, ?_⟩
    cases mustHold with
    | false => simp [splitFrom]
    | true => simp [splitFrom, hne rfl, emptyEnds]
  | cons t ts ih =>
    rw [splitFrom_cons ho hc]
    by_cases hcut : t.kind = separator ∧ depthAfter depth part ≤ 0
    · rw [if_pos hcut]
      by_cases hend : mustHold = true ∧ ts = []
      · obtain ⟨rfl, rfl⟩ := hend
        refine ⟨[part], [], some t, .final hpart hcut.1 hcut.2 rfl, ?_⟩
        cases part <;> simp [splitFrom, Parts.add, emptyEnds]
      · have hmore : mustHold = true → [] ++ ts ≠ [] := fun hmust hnil => hend ⟨hmust, hnil⟩
        obtain ⟨parts, separators, dropped, hparts, hrun⟩ := ih _ [] rfl hmore
        refine ⟨part :: parts, t :: separators, dropped, .more hpart hcut.1 hcut.2 hparts, ?_⟩
        rw [depthAfter_nil] at hrun
        rw [hrun]
        cases mustHold <;> cases part <;> simp [Parts.add, emptyEnds]
    · have hpart' : cuts separator depth (part ++ [t]) = [] := by
        simp [cuts_append, hpart, cuts, hcut]
      have hrun := ih depth (part ++ [t]) hpart' (by simp)
      rw [List.append_assoc, List.singleton_append, depthAfter_append] at hrun
      rw [if_neg hcut]
      exact hrun

end

namespace Cut

variable {separator : Kind} {mustHold : Bool} {depth : Int} {ts : List Token}
  {parts : List (List Token)} {separators : List Token} {dropped : Option Token}

theorem joined_eq (h : Cut separator mustHold depth ts parts separators dropped) :
    joined parts separators ++ dropped.toList = ts := by
  induction h with
  | last => simp [joined]
  | final => simp [joined]
  | more _ _ _ _ ih => simp [joined, ih]

theorem length_eq (h : Cut separator mustHold depth ts parts separators dropped) :
    parts.length = separators.length + 1 := by
  induction h with
  | last => rfl
  | final => rfl
  | more _ _ _ _ ih => simp [ih]

theorem cuts_eq (ho : separator.isOpening = false) (hc : separator.isClosing = false)
    (h : Cut separator mustHold depth ts parts separators dropped) :
    cuts separator depth ts = separators ++ dropped.toList := by
  induction h with
  | last hpart => simp [hpart]
  | final hpart ht hd => simp [cuts_append, hpart, cuts, ht, hd]
  | more hpart ht hd _ ih =>
    simp [cuts_append, hpart, cuts, ht, hd, Kind.depthAfter_separator ho hc, ih]

/-- Where every part has to hold something the span does too. -/
theorem ne_nil (h : Cut separator true depth ts parts separators dropped) : ts ≠ [] := by
  cases h with
  | last _ hne => exact hne rfl
  | final => simp
  | more => simp

/-- A separator is dropped if and only if every part has to hold something and the span is cut
at its end. -/
theorem dropped_iff (ho : separator.isOpening = false) (hc : separator.isClosing = false)
    (h : Cut separator mustHold depth ts parts separators dropped) (t : Token) :
    dropped = some t ↔ mustHold = true ∧ EndsInCut separator depth ts t := by
  induction h with
  | last hpart =>
    refine iff_of_false (by simp) fun hend => ?_
    exact cuts_ne_nil hend.2 hpart
  | @final depth part u hpart hu hd hmust =>
    rw [endsInCut_append part (List.cons_ne_nil u [])]
    constructor
    · intro htu
      obtain rfl := Option.some.inj htu
      exact ⟨hmust, [], rfl, hu, hd⟩
    · rintro ⟨-, before, hbefore, -, -⟩
      have hlast := congrArg List.getLast? hbefore
      simpa using hlast
  | @more depth part ts u parts separators dropped hpart hu hd h ih =>
    rw [ih]
    refine and_congr_right fun hmust => ?_
    subst hmust
    have hneutral : depthAfter depth (part ++ [u]) = depthAfter depth part := by
      rw [depthAfter_append]
      show u.kind.depthAfter _ = _
      rw [hu, Kind.depthAfter_separator ho hc]
    rw [← List.singleton_append, ← List.append_assoc, endsInCut_append _ h.ne_nil, hneutral]

/-- A part has no cuts in it, also when it is read by itself. -/
theorem cuts_part (hd : depth ≤ 0)
    (h : Cut separator mustHold depth ts parts separators dropped) :
    ∀ part ∈ parts, cuts separator 0 part = [] := by
  induction h with
  | last hpart => simpa using cuts_eq_nil_of_le hd hpart
  | final hpart => simpa using cuts_eq_nil_of_le hd hpart
  | more hpart _ hd' _ ih => simpa [cuts_eq_nil_of_le hd hpart] using ih hd'

/-- An empty part that must hold something is ended by a separator. -/
theorem length_emptyEnds (h : Cut separator true depth ts parts separators dropped) :
    (emptyEnds parts (separators ++ dropped.toList)).length = parts.countP List.isEmpty := by
  induction h with
  | @last _ part _ hne =>
    have hempty : part.isEmpty = false := by simpa using hne rfl
    simp [emptyEnds, hempty]
  | @final _ part => cases part <;> simp [emptyEnds]
  | @more _ part _ _ _ _ _ _ _ _ _ ih =>
    simp only [emptyEnds, List.length_map] at ih
    cases part <;> simp [emptyEnds, ih]

end Cut

/-! ## 3. Spans -/

/-- Cutting a span moves no token, and a part is missing in front of one. -/
theorem splitFrom_within {P : Token → Prop} {separator : Kind} {mustHold : Bool} {depth : Int}
    {part ts : List Token} (hpart : ∀ t ∈ part, P t) (hts : ∀ t ∈ ts, P t) :
    (∀ p ∈ (splitFrom separator mustHold depth part ts).parts, ∀ t ∈ p, P t) ∧
      ∀ pos ∈ (splitFrom separator mustHold depth part ts).missing,
        ∃ t, P t ∧ pos = t.position := by
  induction ts generalizing depth part with
  | nil =>
    rw [splitFrom]
    refine ⟨?_, by simp⟩
    dsimp only
    split
    · simp
    · simpa using hpart
  | cons t ts ih =>
    obtain ⟨ht, hrest⟩ := List.forall_mem_cons.1 hts
    have hlonger : ∀ u ∈ part ++ [t], P u :=
      List.forall_mem_append.2 ⟨hpart, List.forall_mem_singleton.2 ht⟩
    rw [splitFrom]
    dsimp only
    split
    · exact ih hlonger hrest
    generalize (if t.kind.isClosing then depth - 1 else depth) = depth
    split
    · obtain ⟨hparts, hmissing⟩ := @ih depth [] (List.forall_mem_nil _) hrest
      refine ⟨List.forall_mem_cons.2 ⟨hpart, hparts⟩, ?_⟩
      unfold Parts.add
      dsimp only
      split
      · exact List.forall_mem_cons.2 ⟨⟨t, ht, rfl⟩, hmissing⟩
      · exact hmissing
    · exact ih hlonger hrest

theorem split_within {P : Token → Prop} {ts : List Token} (hts : ∀ t ∈ withoutEof ts, P t)
    (separator : Kind) (mustHold : Bool) :
    (∀ p ∈ (split ts separator mustHold).parts, ∀ t ∈ p, P t) ∧
      ∀ pos ∈ (split ts separator mustHold).missing, ∃ t, P t ∧ pos = t.position := by
  unfold split
  split
  · simp
  · exact splitFrom_within (List.forall_mem_nil _) hts

/-- The end mark is not cut into any part. -/
theorem ne_eof_of_mem_withoutEof {ts : List Token} (h : ∀ t ∈ ts.dropLast, t.kind ≠ .eof) :
    ∀ t ∈ withoutEof ts, t.kind ≠ .eof := by
  unfold withoutEof
  split
  · rename_i last hlast
    split
    · exact h
    · rename_i hkind
      obtain ⟨before, rfl⟩ := List.getLast?_eq_some_iff.1 hlast
      rw [List.dropLast_concat] at h
      simpa using List.forall_mem_append.2 ⟨h, List.forall_mem_singleton.2 hkind⟩
  · rename_i hnone
    simp [List.getLast?_eq_none_iff.1 hnone]

section

variable {separator : Kind} (ho : separator.isOpening = false) (hc : separator.isClosing = false)
include ho hc

/-- A span without cuts is one part. -/
theorem split_of_cuts_eq_nil {ts : List Token} (heof : ∀ t ∈ ts, t.kind ≠ .eof) (hne : ts ≠ [])
    (h : cuts separator 0 ts = []) (mustHold : Bool) :
    split ts separator mustHold = ⟨[ts], []⟩ := by
  have hbody := withoutEof_eq_self heof
  obtain ⟨parts, separators, dropped, hcut, hrun⟩ :=
    splitFrom_cut ho hc mustHold 0 [] ts rfl fun _ => hne
  rw [List.nil_append] at hcut
  obtain ⟨rfl, hdropped⟩ := List.append_eq_nil_iff.1 ((hcut.cuts_eq ho hc).symm.trans h)
  obtain ⟨part, rfl⟩ := List.length_eq_one_iff.1 hcut.length_eq
  have hjoined := hcut.joined_eq
  rw [hdropped, joined, joined, List.append_nil, List.append_nil] at hjoined
  rw [split_eq_splitFrom (by rwa [hbody]), hbody, ← hjoined]
  simpa [hjoined, hdropped, emptyEnds] using hrun

end

/-- How the parts of a span make it up, with the separators between them and the one behind
them that is dropped, if one is. -/
structure Parts.Complete (r : Parts) (separator : Kind) (mustHold : Bool) (body : List Token)
    (separators : List Token) (dropped : Option Token) : Prop where
  /-- Put together with the separators the parts are the span again. -/
  joined : Token.joined r.parts separators ++ dropped.toList = body
  /-- There is a separator between each part and the next. -/
  length : r.parts.length = if body = [] then 0 else separators.length + 1
  /-- These are all the separators outside brackets. -/
  cuts : separators ++ dropped.toList = Token.cuts separator 0 body
  /-- One is dropped only where every part has to hold something and the span is cut at its end. -/
  dropped_iff : ∀ t, dropped = some t ↔ mustHold = true ∧ EndsInCut separator 0 body t
  /-- A part that holds something is one part if it is cut again, and then nothing is missing. -/
  again : ∀ part ∈ r.parts, part ≠ [] → ∀ mustHold', split part separator mustHold' = ⟨[part], []⟩
  /-- A part is missing in front of each separator that ends an empty part, in their order. -/
  missing : r.missing =
    if mustHold then emptyEnds r.parts (separators ++ dropped.toList) else []
  /-- There is one for each empty part. -/
  length_missing : mustHold = true → r.missing.length = r.parts.countP List.isEmpty

/-- Cut at a separator that is no bracket, a span falls apart into parts that make it up, whether
its brackets match or not. Joined at the separators the parts are the span again, up to a
separator at its very end where every part has to hold something; cut again each is left as it
is; and what is missing is one part for each that is empty, at the separator that ends it. -/
theorem split_complete {ts : List Token} {separator : Kind} (ho : separator.isOpening = false)
    (hc : separator.isClosing = false) (hts : ∀ t ∈ ts.dropLast, t.kind ≠ .eof)
    (mustHold : Bool) :
    ∃ separators dropped, (split ts separator mustHold).Complete separator mustHold
      (withoutEof ts) separators dropped := by
  have heof := ne_eof_of_mem_withoutEof hts
  have hparts := (split_within heof separator mustHold).1
  by_cases hne : withoutEof ts = []
  · have hsplit : split ts separator mustHold = ⟨[], []⟩ := by
      unfold split
      rw [hne]
    refine ⟨[], none, ?_⟩
    rw [hsplit, hne]
    constructor <;> simp [Token.joined, Token.cuts, EndsInCut, emptyEnds]
  · obtain ⟨parts, separators, dropped, hcut, hrun⟩ :=
      splitFrom_cut ho hc mustHold 0 [] (withoutEof ts) rfl fun _ => hne
    rw [List.nil_append] at hcut
    rw [depthAfter_nil] at hrun
    rw [split_eq_splitFrom hne, hrun] at hparts ⊢
    refine ⟨separators, dropped, hcut.joined_eq, ?_, (hcut.cuts_eq ho hc).symm,
      hcut.dropped_iff ho hc, ?_, rfl, ?_⟩
    · rw [if_neg hne]
      exact hcut.length_eq
    · intro part hpart hpartne
      exact split_of_cuts_eq_nil ho hc (hparts part hpart) hpartne
        (hcut.cuts_part (Int.le_refl 0) part hpart)
    · intro hmust
      subst hmust
      exact hcut.length_emptyEnds

/-- A span that closes a bracket before it opens one. The bracket that stays open keeps nothing
together, as the depth only comes back to zero with it; a part is missing between two commas,
and the comma at the end is dropped. -/
theorem split_complete_unbalanced :
    let mark (kind : Kind) (value : String) (n : Nat) : Token :=
      ⟨kind, value, .at "f" n, .at "f" (n + 1)⟩
    let closing := mark .closeParen ")" 0
    let comma := mark .comma ","
    let opening := mark .openParen "(" 3
    let ts := [closing, comma 1, comma 2, opening, comma 4, mark .eof "EOF" 5]
    Kind.comma.isOpening = false ∧ Kind.comma.isClosing = false ∧
      (∀ t ∈ ts.dropLast, t.kind ≠ .eof) ∧
      split ts .comma true = ⟨[[closing], [], [opening]], [.at "f" 2]⟩ ∧
      (split ts .comma true).Complete .comma true [closing, comma 1, comma 2, opening, comma 4]
        [comma 1, comma 2] (some (comma 4)) := by
  intro mark closing comma opening ts
  have hts : ∀ t ∈ ts.dropLast, t.kind ≠ .eof := by decide
  obtain ⟨separators, dropped, h⟩ := @split_complete ts .comma rfl rfl hts true
  have hend : EndsInCut .comma 0 (withoutEof ts) (comma 4) :=
    ⟨[closing, comma 1, comma 2, opening], rfl, rfl, by decide⟩
  obtain rfl : dropped = some (comma 4) := (h.dropped_iff _).2 ⟨rfl, hend⟩
  obtain rfl : separators = [comma 1, comma 2] := by
    have hcuts : separators ++ [comma 4] = [comma 1, comma 2] ++ [comma 4] := h.cuts
    exact List.append_cancel_right hcuts
  exact ⟨rfl, rfl, hts, rfl, h⟩

end ExprCheck.Token
