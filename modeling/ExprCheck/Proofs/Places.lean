/-
ExprCheck.Proofs.Places — where problems are reported.

A problem is reported at a token, or where reading stopped, and reading stops at a token or at
the end of the span, whose place is that of its last token. So what is to be shown is that the
places that a tree keeps (`Expr.Within`) are places of tokens that were read (`read_within`),
and that evaluating a tree brings in no other (`Evaluates.within`).

Of a return statement every part is evaluated like that, and everything else is reported at
the statement (`checkReturn_confined`).

Two problems have no token of the statement to be reported at, and so are reported at the null
place: a span that holds no token beside an end mark, and the name of a result that is read back
and is not in scope (`problem_places`).
-/
import ExprCheck.Proofs.Cuts
import ExprCheck.Proofs.Returned

namespace ExprCheck

/-! ## 1. What a check may report -/

namespace Check

variable {Q Q' : Diagnostic → Prop} {P : α → Prop}

/-- Whatever the check reports meets the condition. -/
def Confined (Q : Diagnostic → Prop) (m : Check α) : Prop :=
  Meets m (fun _ new => ∀ d ∈ new, Q d) True

/-- Whatever the check reports, it reports at places that meet the condition. -/
abbrev ConfinedTo (P : Position → Prop) (m : Check α) : Prop := Confined (fun d => P d.position) m

theorem Confined.mono {m : Check α} (h : Confined Q m) (hQ : ∀ d, Q d → Q' d) : Confined Q' m :=
  Meets.mono h (fun _ _ hnew d hd => hQ d (hnew d hd)) id

theorem confined_pure (a : α) : Confined Q (pure a) := meets_pure (by simp)

theorem confined_report {p : Problem} {pos : Position} (h : Q ⟨p, pos⟩) :
    Confined Q (report p pos) := meets_report (by simpa using h)

/-- Two steps, the second of which needs something of what the first yields. -/
theorem Confined.bind_of {m : Check α} {f : α → Check β} (hm : Confined Q m)
    (hP : Meets m (fun a _ => P a) True) (hf : ∀ a, P a → Confined Q (f a)) :
    Confined Q (m >>= f) := by
  refine Meets.bind (Meets.and_runs hm) fun a new h => Meets.mono (hf a (hP.of_runs h.1)) ?_ id
  intro b more hmore d hd
  rcases List.mem_append.1 hd with hd | hd
  · exact h.2 d hd
  · exact hmore d hd

theorem Confined.bind {m : Check α} {f : α → Check β} (hm : Confined Q m)
    (hf : ∀ a, Confined Q (f a)) : Confined Q (m >>= f) :=
  hm.bind_of (Meets.anyhow hm) fun a _ => hf a

theorem confined_report_pure {p : Problem} {pos : Position} (h : Q ⟨p, pos⟩) (a : α) :
    Confined Q (report p pos >>= fun _ => pure a) :=
  (confined_report h).bind fun _ => confined_pure a

theorem Confined.watch {m : Check α} (h : Confined Q m) : Confined Q (watch m) :=
  (Meets.watch h).mono (fun _ _ hr => hr.2) id

theorem confined_forM {f : α → Check Unit} {as : List α} (h : ∀ a ∈ as, Confined Q (f a)) :
    Confined Q (as.forM f) := by
  induction as with
  | nil => exact confined_pure ()
  | cons a as ih =>
    obtain ⟨ha, has⟩ := List.forall_mem_cons.1 h
    exact ha.bind fun _ => ih has

theorem confined_mapM {f : α → Check β} {as : List α} (h : ∀ a ∈ as, Confined Q (f a)) :
    Confined Q (as.mapM f) := by
  induction as with
  | nil =>
    rw [List.mapM_nil]
    exact confined_pure []
  | cons a as ih =>
    obtain ⟨ha, has⟩ := List.forall_mem_cons.1 h
    rw [List.mapM_cons]
    exact ha.bind fun _ => (ih has).bind fun _ => confined_pure _

/-- What every turn of a loop yields. -/
theorem meets_mapM {f : α → Check β} {P : β → Prop} (h : ∀ a, Meets (f a) (fun b _ => P b) True)
    (as : List α) : Meets (as.mapM f) (fun bs _ => ∀ b ∈ bs, P b) True := by
  induction as with
  | nil =>
    rw [List.mapM_nil]
    exact meets_pure (by simp)
  | cons a as ih =>
    rw [List.mapM_cons]
    refine (h a).bind fun b _ hb => ih.bind fun bs _ hbs => meets_pure ?_
    simpa using ⟨hb, hbs⟩

end Check

open Check

/-! ## 2. The places that a tree keeps -/

namespace Expr

mutual

/-- The places of the tokens in the tree, and those where reading stopped, meet the
condition. -/
def Within (P : Position → Prop) : Expr → Prop
  | .number t | .literal t | .name t => P t.position
  | .group opening items stop =>
    P opening.position ∧ AllWithin P items ∧ ∀ s ∈ stop, P s.position
  | .prefixed operator operand => P operator.position ∧ Within P operand
  | .binary left operator right => Within P left ∧ P operator.position ∧ Within P right
  | .call callee opening args stop =>
    Within P callee ∧ P opening.position ∧ AllWithin P args ∧ ∀ s ∈ stop, P s.position
  | .invalid stop => P stop.position
  | .trailing e stop => Within P e ∧ P stop.position
termination_by structural e => e

def AllWithin (P : Position → Prop) : List Expr → Prop
  | [] => True
  | e :: es => Within P e ∧ AllWithin P es
termination_by structural es => es

end

variable {P : Position → Prop}

theorem start_within : ∀ e : Expr, e.Within P → P e.start
  | .number _, h | .literal _, h | .name _, h | .invalid _, h => h
  | .group .., h | .prefixed .., h => h.1
  | .binary e .., h | .call e .., h | .trailing e .., h => start_within e h.1

/-! ## 3. Reading -/

variable {last : Position}

/-- Reading stops at a token of what is left, or at the end. -/
theorem stop_within (hlast : P last) {ts : List Token} (hts : ∀ t ∈ ts, P t.position) :
    P (Stop.at last ts).position := by
  cases ts with
  | nil => exact hlast
  | cons t ts => exact hts t List.mem_cons_self

/-- The list, its stop and what is left of the tokens meet the condition. -/
def ListWithin (P : Position → Prop) (r : List Expr × Option Stop × List Token) : Prop :=
  AllWithin P r.1 ∧ (∀ s ∈ r.2.1, P s.position) ∧ ∀ t ∈ r.2.2, P t.position

/-- An item is read, and then the items after it. -/
theorem afterItem_within (hlast : P last) {r : Expr × List Token} (hitem : r.1.Within P)
    (hrest : ∀ t ∈ r.2, P t.position) {n : Nat} (hn : r.2.length ≤ n)
    {more : List Token → List Expr × Option Stop × List Token}
    (ih : ∀ rest, rest.length < n → (∀ t ∈ rest, P t.position) → ListWithin P (more rest)) :
    ListWithin P (afterItem last more r) := by
  obtain ⟨item, _ | ⟨t, rest⟩⟩ := r
  · refine ⟨⟨hitem, trivial⟩, ?_, List.forall_mem_nil _⟩
    rintro _ ⟨⟩
    exact hlast
  obtain ⟨-, hafter⟩ := List.forall_mem_cons.1 hrest
  unfold afterItem
  dsimp only
  split
  · obtain ⟨hitems, hstop, hleft⟩ := ih rest hn hafter
    exact ⟨⟨hitem, hitems⟩, hstop, hleft⟩
  · split
    · exact ⟨⟨hitem, trivial⟩, by simp, hafter⟩
    · refine ⟨⟨hitem, trivial⟩, ?_, by simp⟩
      rintro _ ⟨⟩
      exact stop_within hlast hrest

mutual

/-- What is read of tokens whose places meet the condition meets it, and so does what is
left. -/
theorem read_within (hlast : P last) (p : Power) (ts : List Token)
    (hts : ∀ t ∈ ts, P t.position) :
    (read last p ts).1.Within P ∧ ∀ t ∈ (read last p ts).2, P t.position := by
  -- the tail is read of no more tokens than the operand was, with a smaller measure
  have hlength := length_readOperand_le last ts
  obtain ⟨hleft, hrest⟩ := readOperand_within hlast ts hts
  rw [read_eq]
  exact readTail_within hlast p hleft _ hrest
termination_by 4 * ts.length + 2

theorem readOperand_within (hlast : P last) (ts : List Token) (hts : ∀ t ∈ ts, P t.position) :
    (readOperand last ts).1.Within P ∧ ∀ t ∈ (readOperand last ts).2, P t.position := by
  cases ts with
  | nil =>
    rw [readOperand_nil]
    exact ⟨hlast, by simp⟩
  | cons t rest =>
    obtain ⟨ht, hrest⟩ := List.forall_mem_cons.1 hts
    have withPrefix : (Expr.prefixed t (read last .prefixed rest).1).Within P ∧
        ∀ u ∈ (read last .prefixed rest).2, P u.position := by
      obtain ⟨hoperand, hleft⟩ := read_within hlast .prefixed rest hrest
      exact ⟨⟨ht, hoperand⟩, hleft⟩
    rw [readOperand_cons]
    split
    -- six kinds of tokens stand for something by themselves
    · exact ⟨ht, hrest⟩
    · exact ⟨ht, hrest⟩
    · exact ⟨ht, hrest⟩
    · exact ⟨ht, hrest⟩
    · exact ⟨ht, hrest⟩
    · exact ⟨ht, hrest⟩
    · obtain ⟨hitems, hstop, hleft⟩ := readItems_within hlast rest hrest
      exact ⟨⟨ht, hitems, hstop⟩, hleft⟩
    · exact withPrefix
    · exact withPrefix
    · exact ⟨stop_within hlast hts, by simp⟩
termination_by 4 * ts.length + 1

theorem readTail_within (hlast : P last) (p : Power) {left : Expr} (hleft : left.Within P)
    (ts : List Token) (hts : ∀ t ∈ ts, P t.position) :
    (readTail last p left ts).1.Within P ∧ ∀ t ∈ (readTail last p left ts).2, P t.position := by
  by_cases hstop : grip ts ≤ p.rank
  · rw [readTail_stop hstop]
    exact ⟨hleft, hts⟩
  obtain ⟨t, rest, htokens, hjoins⟩ := of_grip hstop
  have hlength : ts.length = rest.length + 1 := by simp [htokens]
  obtain ⟨ht, hrest⟩ := List.forall_mem_cons.1 (htokens ▸ hts)
  rcases hjoins with ⟨op, hop, hgrip⟩ | ⟨ho, hgrip⟩
  · have hshorter := length_read_le last op.power rest
    obtain ⟨hright, hafter⟩ := read_within hlast op.power rest hrest
    have hbinary : (Expr.binary left t (read last op.power rest).1).Within P :=
      ⟨hleft, ht, hright⟩
    rw [htokens, readTail_operator hop (by omega)]
    exact readTail_within hlast p hbinary _ hafter
  · have hshorter := length_readArgs_le last rest
    obtain ⟨hargs, hclosed, hafter⟩ := readArgs_within hlast rest hrest
    have hcall : (Expr.call left t (readArgs last rest).1 (readArgs last rest).2.1).Within P :=
      ⟨hleft, ht, hargs, hclosed⟩
    rw [htokens, readTail_call ho (by omega)]
    exact readTail_within hlast p hcall _ hafter
termination_by 4 * ts.length

theorem readItems_within (hlast : P last) (ts : List Token) (hts : ∀ t ∈ ts, P t.position) :
    ListWithin P (readItems last ts) := by
  obtain ⟨hitem, hrest⟩ := read_within hlast .whole ts hts
  rw [readItems_eq]
  exact afterItem_within hlast hitem hrest (length_read_le last .whole ts)
    fun rest _ h => readItems_within hlast rest h
termination_by 4 * ts.length + 3

theorem readArgs_within (hlast : P last) (ts : List Token) (hts : ∀ t ∈ ts, P t.position) :
    ListWithin P (readArgs last ts) := by
  by_cases hclosing : ∃ t us, ts = t :: us ∧ t.kind = .closeParen
  · obtain ⟨t, us, rfl, ht⟩ := hclosing
    rw [readArgs_closed ht]
    exact ⟨trivial, by simp, (List.forall_mem_cons.1 hts).2⟩
  · obtain ⟨hitem, hrest⟩ := read_within hlast .whole ts hts
    rw [readArgs_eq fun t us hts ht => hclosing ⟨t, us, hts, ht⟩]
    exact afterItem_within hlast hitem hrest (length_read_le last .whole ts)
      fun rest _ h => readArgs_within hlast rest h
termination_by 4 * ts.length + 3

end

/-- The tree of a span keeps places of the span's tokens only. -/
theorem parse?_within {ts : List Token} {e : Expr} (h : parse? ts = some e)
    (hts : ∀ t ∈ Token.withoutEof ts, P t.position) : e.Within P := by
  cases hspan : Token.withoutEof ts with
  | nil => simp [parse?_eq_none.2 hspan] at h
  | cons t us =>
    rw [hspan] at hts
    obtain ⟨last, hmem, hparse⟩ := parse?_cons hspan
    obtain rfl := Option.some.inj (hparse.symm.trans h)
    have hlast : P last.position := hts last hmem
    obtain ⟨he, hrest⟩ := read_within hlast .whole (t :: us) hts
    generalize read last.position .whole (t :: us) = r at he hrest
    obtain ⟨e, _ | ⟨u, rest⟩⟩ := r
    · exact he
    · exact ⟨he, stop_within hlast hrest⟩

end Expr

/-! ## 4. Evaluating -/

section

variable {Q : Diagnostic → Prop}

theorem checkAssign_confined {ignoreAny : Bool} {target : Ty} {incoming : Incoming}
    (h : ∀ p, Q ⟨p, incoming.position⟩) : Confined Q (checkAssign ignoreAny target incoming) := by
  unfold checkAssign
  split
  · exact confined_pure ()
  · split
    · exact confined_report (h _)
    · exact confined_pure ()

/-- Values are checked where they are said to be. -/
theorem checkAssignEach_confined (targets : List Ty) (args : List Incoming)
    (h : ∀ a ∈ args, ∀ p, Q ⟨p, a.position⟩) : Confined Q (checkAssignEach targets args) := by
  fun_induction checkAssignEach targets args with
  | case1 target targets incoming rest ih =>
    obtain ⟨hfirst, hrest⟩ := List.forall_mem_cons.1 h
    exact (checkAssign_confined hfirst).bind fun _ => ih hrest
  | case2 => exact confined_pure ()

end

namespace Value

variable {P : Position → Prop}

theorem number_confined {t : Token} (h : P t.position) : ConfinedTo P (number t) := by
  unfold number
  split
  · exact confined_pure _
  · exact confined_report_pure h _

theorem name_confined (env : Env) {t : Token} (h : P t.position) : ConfinedTo P (name env t) := by
  unfold name
  split
  · exact confined_pure _
  · exact confined_report_pure h _

theorem invalid_confined {stop : Stop} (h : P stop.position) : ConfinedTo P (invalid stop) :=
  confined_report_pure h _

theorem unclosedGroup_confined (items : List Value) {stop : Stop} (h : P stop.position) :
    ConfinedTo P (unclosedGroup items stop) := by
  unfold unclosedGroup
  split
  · exact confined_pure _
  · exact invalid_confined h

theorem unclosedCall_confined (args : List Incoming) {stop : Stop} (h : P stop.position) :
    ConfinedTo P (unclosedCall args stop) := by
  unfold unclosedCall
  split
  · exact confined_pure _
  · exact invalid_confined h

theorem prefixed_confined (env : Env) {operator : Token} (h : P operator.position)
    (operand : Value) : ConfinedTo P (Value.prefixed env operator operand) := by
  unfold Value.prefixed
  split
  · exact confined_pure _
  · dsimp only
    split
    · exact confined_report_pure h _
    · exact confined_pure _

theorem resolve_confined (settings : Settings) (left : Value) {token : Token}
    (h : P token.position) (right : Value) :
    ConfinedTo P (resolve settings left token right) := by
  refine (resolve_meets settings left token right).mono ?_ fun _ => trivial
  intro v new hnew d hd
  rw [hnew.reports.2 d hd]
  exact h

theorem checkCount_confined (expected received : Nat) {position : Position} (h : P position) :
    ConfinedTo P (checkCount expected received position) := by
  unfold checkCount
  split
  · exact confined_report h
  split
  · exact confined_report h
  · exact confined_pure ()

theorem call_confined {callee : Value} {opening : Token} (h : P opening.position)
    {args : List Incoming} (hargs : ∀ a ∈ args, P a.position) :
    ConfinedTo P (Value.call callee opening args) := by
  cases hf : callee.isFailed with
  | true =>
    unfold Value.call
    rw [if_pos hf]
    exact confined_pure _
  | false =>
    cases hs : callee.signature? with
    | none =>
      unfold Value.call
      rw [if_neg (by simp [hf]), hs]
      exact confined_report_pure h _
    | some signature =>
      rw [call_eq hf hs]
      refine (checkCount_confined _ _ h).bind fun _ => ?_
      exact (checkAssignEach_confined _ _ fun a ha _ => hargs a ha).bind fun _ => confined_pure _

end Value

section

variable {env : Env} {P : Position → Prop}

mutual

/-- Evaluating a tree reports problems at the places that the tree keeps. -/
theorem Evaluates.within {e : Expr} {v : Value} {new : List Diagnostic} :
    Evaluates env e v new → e.Within P → ∀ d ∈ new, P d.position
  | .number h => fun he => (Value.number_confined he).of_runs h
  | .literal => by simp
  | .name h => fun he => (Value.name_confined env he).of_runs h
  | .groupFailed h _ | .grouped h _ | .tuple h _ _ => by
    rintro ⟨-, hitems, -⟩
    exact (h.within hitems).2
  | .unclosedGroup h hv => by
    rintro ⟨-, hitems, hstop⟩
    have hown := (Value.unclosedGroup_confined _ (hstop _ rfl)).of_runs hv
    exact List.forall_mem_append.2 ⟨(h.within hitems).2, hown⟩
  | .prefixFailed h _ => by
    rintro ⟨-, hoperand⟩
    exact h.within hoperand
  | .prefixed h _ hv => by
    rintro ⟨hoperator, hoperand⟩
    have hown := (Value.prefixed_confined env hoperator _).of_runs hv
    exact List.forall_mem_append.2 ⟨h.within hoperand, hown⟩
  | .binaryFailed hl hr _ => by
    rintro ⟨hleft, -, hright⟩
    exact List.forall_mem_append.2 ⟨hl.within hleft, hr.within hright⟩
  | .binary hl hr _ _ hv => by
    rintro ⟨hleft, hoperator, hright⟩
    have hown := (Value.resolve_confined env.settings _ hoperator _).of_runs hv
    have hmore := List.forall_mem_append.2 ⟨hr.within hright, hown⟩
    exact List.forall_mem_append.2 ⟨hl.within hleft, hmore⟩
  | .callFailed hc ha _ => by
    rintro ⟨hcallee, -, hargs, -⟩
    exact List.forall_mem_append.2 ⟨hc.within hcallee, (ha.within hargs).2⟩
  | .call hc ha _ hv => by
    rintro ⟨hcallee, hopening, hargs, -⟩
    obtain ⟨hplaces, hreported⟩ := ha.within hargs
    have hown := (Value.call_confined hopening hplaces).of_runs hv
    have hmore := List.forall_mem_append.2 ⟨hreported, hown⟩
    exact List.forall_mem_append.2 ⟨hc.within hcallee, hmore⟩
  | .unclosedCall hc ha hv => by
    rintro ⟨hcallee, -, hargs, hstop⟩
    have hown := (Value.unclosedCall_confined _ (hstop _ rfl)).of_runs hv
    have hmore := List.forall_mem_append.2 ⟨(ha.within hargs).2, hown⟩
    exact List.forall_mem_append.2 ⟨hc.within hcallee, hmore⟩
  | .invalid => fun hstop => List.forall_mem_singleton.2 hstop
  | .trailing h => by
    rintro ⟨he, hstop⟩
    exact List.forall_mem_append.2 ⟨h.within he, List.forall_mem_singleton.2 hstop⟩

/-- The places of arguments are places that their trees keep. -/
theorem EvaluatesAll.within {es : List Expr} {args : List Incoming} {new : List Diagnostic} :
    EvaluatesAll env es args new → Expr.AllWithin P es →
      (∀ a ∈ args, P a.position) ∧ ∀ d ∈ new, P d.position
  | .nil => by simp
  | .cons h hs => by
    rintro ⟨he, hes⟩
    obtain ⟨hargs, hmore⟩ := hs.within hes
    exact ⟨List.forall_mem_cons.2 ⟨Expr.start_within _ he, hargs⟩,
      List.forall_mem_append.2 ⟨h.within he, hmore⟩⟩

end

end

/-! ## 5. Spans -/

namespace Token

/-- Without its end mark a span is empty only if it holds nothing else. -/
theorem eq_nil_or_of_withoutEof_eq_nil {ts : List Token} (h : withoutEof ts = []) :
    ts = [] ∨ ∃ t, t.kind = .eof ∧ ts = [t] := by
  rcases List.eq_nil_or_concat' ts with rfl | ⟨us, t, rfl⟩
  · exact .inl rfl
  · have hlast : (us ++ [t]).getLast? = some t := List.getLast?_concat
    unfold withoutEof at h
    rw [hlast] at h
    dsimp only at h
    split at h
    · rename_i ht
      rw [List.dropLast_concat] at h
      exact .inr ⟨t, ht, by rw [h, List.nil_append]⟩
    · simp at h

end Token

/-- Of a span problems are reported at its tokens. A span without tokens is at no place. -/
theorem evaluate_confined (env : Env) (ts : List Token) :
    Confined (fun d => (∃ t ∈ Token.withoutEof ts, d.position = t.position) ∨
      (Token.withoutEof ts = [] ∧ d = ⟨.missingExpression, .null⟩)) (evaluate env ts) := by
  refine (evaluate_meets env ts).mono ?_ fun _ => trivial
  intro v new h d hd
  cases h with
  | @tree e v new hparse h =>
    have he : e.Within fun p => ∃ t ∈ Token.withoutEof ts, p = t.position :=
      Expr.parse?_within hparse fun t ht => ⟨t, ht, rfl⟩
    exact .inl (h.within he d hd)
  | missing hparse => exact .inr ⟨Expr.parse?_eq_none.1 hparse, List.mem_singleton.1 hd⟩

/-! ## 6. Return statements -/

namespace Return

variable {Q : Diagnostic → Prop} {env : Env} {position : Position}

theorem checkParts_confined {ts : List Token} {separator : Token.Kind} {mustHold : Bool}
    (hmissing : ∀ pos ∈ (Token.split ts separator mustHold).missing,
      Q ⟨.missingExpression, pos⟩) : Confined Q (Token.checkParts ts separator mustHold) :=
  (confined_forM fun pos hpos => confined_report (hmissing pos hpos)).bind fun _ =>
    confined_pure _

theorem evalParts_confined {ts : List Token}
    (hmissing : ∀ pos ∈ (Token.split ts .comma true).missing, Q ⟨.missingExpression, pos⟩)
    (hparts : ∀ part ∈ (Token.split ts .comma true).parts, part ≠ [] →
      Confined Q (evaluate env part)) : Confined Q (evalParts env position ts) := by
  rw [evalParts_eq]
  refine (checkParts_confined hmissing).bind_of
    (checkParts_meets ts .comma true).of_faultless ?_
  rintro _ rfl
  refine confined_mapM fun part hpart => ?_
  obtain ⟨hmem, hsome⟩ := List.mem_filter.1 hpart
  have hne : part ≠ [] := by simpa using hsome
  exact (hparts part hmem hne).watch.bind fun _ => confined_pure _

/-- The values of a statement are said to be where the statement is. -/
theorem evalParts_position (env : Env) (position : Position) (ts : List Token) :
    Meets (evalParts env position ts) (fun returned _ => ∀ a ∈ returned, a.position = position)
      True := by
  rw [evalParts_eq]
  refine (checkParts_runs ts .comma true).anyhow.bind fun _ _ _ => ?_
  refine meets_mapM (fun part => ?_) _
  exact (Meets.watch (evaluate_runs env part)).anyhow.bind fun _ _ _ => meets_pure rfl

variable {returned : List Incoming}

/-- Values at the statement are checked there. -/
theorem checkAssignEach_confined_at (hposition : ∀ p, Q ⟨p, position⟩)
    (hreturned : ∀ a ∈ returned, a.position = position) (types : List Ty) :
    Confined Q (checkAssignEach types returned) :=
  checkAssignEach_confined types returned fun a ha p => hreturned a ha ▸ hposition p

theorem checkSingle_confined (hposition : ∀ p, Q ⟨p, position⟩)
    (hreturned : ∀ a ∈ returned, a.position = position) (type : Ty) :
    Confined Q (checkSingle position type returned) := by
  have hrest := checkAssignEach_confined_at hposition hreturned [type]
  unfold checkSingle
  dsimp only
  split
  · exact (confined_report (hposition _)).bind fun _ => hrest
  · exact hrest

theorem checkTuple_confined (hposition : ∀ p, Q ⟨p, position⟩) (types : List Ty)
    (tuple : Incoming) : Confined Q (checkTuple position types tuple) := by
  unfold checkTuple
  split
  · exact confined_pure ()
  split
  · exact confined_report (hposition _)
  split
  · exact confined_report (hposition _)
  split
  · exact confined_report (hposition _)
  · refine checkAssignEach_confined_at hposition ?_ types
    intro a ha
    obtain ⟨v, -, rfl⟩ := List.mem_map.1 ha
    rfl

theorem checkSeveral_confined (hposition : ∀ p, Q ⟨p, position⟩)
    (hreturned : ∀ a ∈ returned, a.position = position) (types : List Ty) :
    Confined Q (checkSeveral position types returned) := by
  have hrest := checkAssignEach_confined_at hposition hreturned types
  unfold checkSeveral
  split
  · exact checkTuple_confined hposition types _
  · dsimp only
    split
    · exact (confined_report (hposition _)).bind fun _ => hrest
    · exact hrest

/-- A name that is read back comes from no text. -/
theorem readBack_confined {signature : Signature Ty}
    (hnames : ∀ name ∈ signature.results, name ≠ env.settings.ignoreIdentifier →
      env.scope.get? name = none → Q ⟨.unknownName name, .null⟩) :
    Confined Q (readBack env signature) := by
  unfold readBack
  refine confined_mapM fun name hname => ?_
  have hmem : name ∈ signature.results ∧ name ≠ env.settings.ignoreIdentifier := by
    split at hname
    · simpa using hname
    · simpa using List.mem_of_mem_take hname
  rw [evaluate_name env rfl]
  unfold Value.name
  split
  · exact confined_pure _
  · rename_i hget
    exact confined_report_pure (hnames name hmem.1 hmem.2 hget) _

end Return

open Return in
/-- What may be reported of a return statement: anything at the statement, what may be of its
parts, a part that is missing, and a name that is read back. -/
theorem checkReturn_confined {Q : Diagnostic → Prop} {env : Env} {signature : Signature Ty}
    {position : Position} {ts : List Token} (hposition : ∀ p, Q ⟨p, position⟩)
    (hmissing : ∀ pos ∈ (Token.split (Token.withoutEof ts) .comma true).missing,
      Q ⟨.missingExpression, pos⟩)
    (hparts : ∀ part ∈ (Token.split (Token.withoutEof ts) .comma true).parts, part ≠ [] →
      Confined Q (evaluate env part))
    (hnames : Token.withoutEof ts = [] → ∀ name ∈ signature.results,
      name ≠ env.settings.ignoreIdentifier → env.scope.get? name = none →
        Q ⟨.unknownName name, .null⟩) :
    Confined Q (checkReturn env signature position ts) := by
  unfold checkReturn
  dsimp only
  split
  · rename_i hempty
    split
    · exact readBack_confined (hnames (by simpa using hempty))
    · split
      · exact confined_pure _
      · exact confined_report_pure (hposition _) _
  · have hvalues : Confined Q (evalParts env position (Token.withoutEof ts)) :=
      evalParts_confined hmissing hparts
    have hplaces := evalParts_position env position (Token.withoutEof ts)
    split
    · refine (confined_report (hposition _)).bind fun _ => ?_
      exact hvalues.bind fun _ => confined_pure _
    · refine hvalues.bind_of hplaces fun returned hreturned => ?_
      split
      · exact (checkSeveral_confined hposition hreturned _).bind fun _ => confined_pure _
      · exact (checkSingle_confined hposition hreturned _).bind fun _ => confined_pure _

/-! ## 7. No place -/

/-- A problem with an expression is at one of its tokens, and a problem with a return statement
at the statement or at one of its tokens. Two problems are at the null place instead: that a span
or a part of a statement holds no token beside an end mark, and that a name that is read back is
not in scope. -/
theorem problem_places (env : Env) :
    (∀ ts, Meets (evaluate env ts)
      (fun _ new => ∀ d ∈ new, (∃ t ∈ ts, d.position = t.position) ∨
        (Token.withoutEof ts = [] ∧ d = ⟨.missingExpression, .null⟩))
      ¬env.scope.Exact) ∧
    ∀ (signature : Signature Ty) (position : Position) ts,
      Meets (checkReturn env signature position ts)
        (fun _ new => ∀ d ∈ new, d.position = position ∨ (∃ t ∈ ts, d.position = t.position) ∨
          (∃ mark, mark.kind = .eof ∧
            [mark] ∈ (Token.split (Token.withoutEof ts) .comma true).parts ∧
            d = ⟨.missingExpression, .null⟩) ∨
          (Token.withoutEof ts = [] ∧
            ∃ name ∈ signature.results, name ≠ env.settings.ignoreIdentifier ∧
              env.scope.get? name = none ∧ d = ⟨.unknownName name, .null⟩))
        ¬env.scope.Exact := by
  constructor
  · intro ts
    refine (evaluate_runs env ts).and_runs.mono (fun v new h d hd => ?_) id
    refine ((evaluate_confined env ts).of_runs h.1 d hd).imp_left ?_
    rintro ⟨t, ht, hd⟩
    exact ⟨t, Token.mem_of_mem_withoutEof ht, hd⟩
  · intro signature position ts
    obtain ⟨hparts, hmissing⟩ := Token.split_within
      (fun t ht => Token.mem_of_mem_withoutEof (Token.mem_of_mem_withoutEof ht)) .comma true
    refine (checkReturn_runs env signature position ts).and_runs.mono (fun _ new h => ?_) id
    refine (checkReturn_confined (fun _ => .inl rfl) ?_ ?_ ?_).of_runs h.1
    · exact fun pos hpos => .inr (.inl (hmissing pos hpos))
    · intro part hpart hne
      refine (evaluate_confined env part).mono fun d hd => ?_
      rcases hd with ⟨t, ht, hd⟩ | ⟨hempty, hd⟩
      · exact .inr (.inl ⟨t, hparts part hpart t (Token.mem_of_mem_withoutEof ht), hd⟩)
      · rcases Token.eq_nil_or_of_withoutEof_eq_nil hempty with rfl | ⟨mark, hmark, rfl⟩
        · exact absurd rfl hne
        · exact .inr (.inr (.inl ⟨mark, hmark, hpart, hd⟩))
    · exact fun hempty name hname hne hget =>
        .inr (.inr (.inr ⟨hempty, name, hname, hne, hget, rfl⟩))

/-- Three problems at the null place, which is neither the place of the statement nor of a token:
of a span that is an end mark, of a part of a statement that is one, and of a name that is read
back. -/
theorem null_places :
    let statement := Position.at "shell" 7
    let token (kind : Token.Kind) (value : String) (offset : Nat) : Token :=
      ⟨kind, value, .at "shell" offset, .at "shell" (offset + value.utf8ByteSize)⟩
    let mark := token .eof "" 18
    let listed := [token .number "1" 14, token .comma "," 16, mark, token .comma "," 19,
      token .number "2" 21]
    let i32 := Ty.number .i32
    let named : Signature Ty := ⟨"f", [], i32, ["x"]⟩
    let triple : Signature Ty := ⟨"g", [], Ty.tupleOf [i32, i32, i32], []⟩
    let reported {α : Type} (m : Check α) := (m.run .empty).toOption.map (·.2.toList)
    .null ∉ statement :: listed.map Token.position ∧
      reported (evaluate default [mark]) = some [⟨.missingExpression, .null⟩] ∧
      reported (checkReturn default triple statement listed) =
        some [⟨.missingExpression, .null⟩] ∧
      reported (checkReturn default named statement []) = some [⟨.unknownName "x", .null⟩] := by
  decide +kernel

end ExprCheck
