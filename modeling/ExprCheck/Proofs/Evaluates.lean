/-
ExprCheck.Proofs.Evaluates — the values of expressions, as a relation.

`Evaluates env e v new` says that the tree `e` has the value `v`, and that finding it
out reports `new`. There is a rule for each node and what can happen at it: the parts
are evaluated first, from left to right, and what the node itself reports comes last.
A failed part makes the node fail without a report of its own.

`eval_meets` ties the evaluator to the relation. It never depends on what was
reported before, and it faults only where the scope has a constant under an integer
type that is no integer (`Scope.Exact`). `Evaluates.keeps` is the induction by which
facts about values are proved: whatever holds of the values in the scope and of what
nodes make (`Made`), and passes from the items of a tuple to the tuple, holds of the
value of every expression.
-/
import ExprCheck.Expr.Eval
import ExprCheck.Proofs.Resolve

namespace ExprCheck

open Check

/-! ## 1. What single nodes make -/

/-- What a node makes of the values of its parts: the failed value, and then something
was reported, or a value put together by the rules of `Made` that is not failed. -/
inductive Produced (shifts : Prop) : Value → List Diagnostic → Prop
  | failed {new : List Diagnostic} (h : new ≠ []) : Produced shifts .failed new
  | made {v : Value} {new : List Diagnostic} (hmade : Made shifts v.type v.const)
      (hfailed : v.isFailed = false) (hcomponents : v.components = []) : Produced shifts v new

theorem Resolved.produced {position : Position} {shifts : Prop} {v : Value}
    {new : List Diagnostic} (h : Resolved position shifts v new) : Produced shifts v new := by
  cases h with
  | refused h => exact .failed (by simp)
  | made hnew hmade hvoid hcomponents =>
    exact .made hmade (by simp [Value.isFailed, hvoid]) hcomponents

/-- Every value that the scope gives meets the condition. -/
def Scope.All (s : Scope) (P : Value → Prop) : Prop := ∀ name v, s.get? name = some v → P v

theorem Scope.all_empty {P : Value → Prop} : Scope.empty.All P := by
  intro name v h
  cases h

theorem Scope.All.insert {P : Value → Prop} {s : Scope} (h : s.All P) (name : String)
    {v : Value} (hv : P v) : (s.insert name v).All P := by
  intro name' w hw
  by_cases hname : name' = name
  · rw [hname, Scope.get?_insert_self, Option.some.injEq] at hw
    exact hw ▸ hv
  · rw [Scope.get?_insert_of_ne _ _ hname] at hw
    exact h name' w hw

/-- Under integer types there are only integers, wherever a constant is in scope. -/
def Scope.Exact (s : Scope) : Prop := s.All Value.Exact

namespace Value

theorem number_meets (t : Token) : Meets (number t) (Produced False) False := by
  unfold number
  split
  · rename_i v hv
    simp only [ofNumber?, Option.bind_eq_bind, Option.bind_eq_some_iff, Option.pure_def,
      Option.some.injEq] at hv
    obtain ⟨c, -, kind, hkind, rfl⟩ := hv
    exact meets_pure (.made (.number hkind) rfl rfl)
  · exact meets_report_pure (.failed (by simp))

theorem name_meets (env : Env) (t : Token) :
    Meets (name env t)
      (fun v new => env.scope.get? t.value = some v ∨ (v = .failed ∧ new ≠ [])) False := by
  unfold name
  split
  · rename_i v hv
    exact meets_pure (.inl hv)
  · exact meets_report_pure (.inr ⟨rfl, by simp⟩)

theorem isFailed_of_not_isVoid {v : Value} (h : v.type.isVoid = false) : v.isFailed = false := by
  simp [isFailed, h]

theorem isFailed_ofLiteral (t : Token) : (ofLiteral t).isFailed = false := by
  unfold ofLiteral
  split <;> rfl

theorem isNumeric_negated (c : Constant) : (negated c).isNumeric := by
  cases c <;> simp only [negated] <;> (try split) <;> rfl

/-- The constant of a prefix operation goes with the type of the operand. -/
theorem made_prefixed {operator : Token.Kind} {operand : Value} {const const' : Option Constant}
    (h : prefixedConst? operator operand const = some const') :
    let type :=
      match const'.bind Constant.narrowestKind? with
      | some kind => if operand.type.isNumeric then Ty.number kind else operand.type
      | none => operand.type
    Made False type const' ∧ type.isVoid = false := by
  unfold prefixedConst? at h
  split at h
  · split at h
    · rename_i hnum
      obtain ⟨kind, hkind⟩ := Option.isSome_iff_exists.1 hnum
      cases const with
      | none =>
        cases h
        exact ⟨.unknown _, Ty.isVoid_of_numberKind hkind⟩
      | some c =>
        cases h
        obtain ⟨narrow, hn⟩ := Constant.narrowestKind?_of_isNumeric (isNumeric_negated c)
        simp only [Option.map_some, Option.bind_some, hn, hnum, if_true]
        exact ⟨.number hn, rfl⟩
    · simp at h
  · split at h
    · rename_i hbool
      have htype : operand.type.isVoid = false := by
        simp_all [Ty.isBool, Ty.isVoid]
      split at h
      · cases h
        exact ⟨.truth hbool _, htype⟩
      · cases h
        exact ⟨.unknown _, htype⟩
    · simp at h
  · simp at h

theorem prefixed_meets (env : Env) (operator : Token) {operand : Value}
    (h : operand.isFailed = false) :
    Meets (Value.prefixed env operator operand) (Produced False) False := by
  unfold Value.prefixed
  rw [if_neg (by simp [h])]
  dsimp only
  split
  · exact meets_report_pure (.failed (by simp))
  · rename_i const hconst
    obtain ⟨hmade, hvoid⟩ := made_prefixed hconst
    exact meets_pure (.made hmade (isFailed_of_not_isVoid hvoid) rfl)

theorem checkAssign_runs (ignoreAny : Bool) (target : Ty) (incoming : Incoming) :
    RunsUnless (checkAssign ignoreAny target incoming) False := by
  unfold checkAssign
  split
  · exact meets_pure trivial
  · split
    · exact meets_report trivial
    · exact meets_pure trivial

/-- Of a value with a text, of which nothing was reported before, what is wrong is reported. -/
theorem checkAssign_reports (ignoreAny : Bool) (target : Ty) {v : Value}
    (htext : v.text ≠ "") (position : Position) :
    Runs (checkAssign ignoreAny target ⟨v, position, false⟩) ()
      ((assignProblem? ignoreAny target v).toList.map (⟨·, position⟩)) := by
  unfold checkAssign
  simp only [Bool.false_or, String.isEmpty_iff, htext, if_false]
  cases assignProblem? ignoreAny target v with
  | none => exact runs_pure ()
  | some problem => exact runs_report problem position

theorem checkAssignEach_runs (targets : List Ty) (args : List Incoming) :
    RunsUnless (checkAssignEach targets args) False := by
  fun_induction checkAssignEach targets args with
  | case1 target targets incoming rest ih =>
    exact (checkAssign_runs false target incoming).bind fun _ _ _ => ih
  | case2 => exact meets_pure trivial

/-- Reports arguments that are missing, or of which there are too many. -/
def checkCount (expected received : Nat) (position : Position) : Check Unit :=
  if received < expected then Check.report (.missingArgument expected received) position
  else if expected < received then Check.report (.extraArgument expected received) position
  else return

theorem checkCount_runs (expected received : Nat) (position : Position) :
    RunsUnless (checkCount expected received position) False := by
  unfold checkCount
  split
  · exact meets_report trivial
  split
  · exact meets_report trivial
  · exact meets_pure trivial

/-- A call that comes to its arguments goes on in the same way whatever is said about their
number. -/
theorem call_eq {callee : Value} {signature : Signature Ty} (hf : callee.isFailed = false)
    (hs : callee.signature? = some signature) (opening : Token) (args : List Incoming) :
    call callee opening args = (do
      checkCount signature.params.length args.length opening.position
      checkAssignEach (signature.params.map (·.type)) args
      return typed signature.result
        (callee.text ++ "(" ++ texts (args.map (·.value)) ++ ")")) := by
  unfold call checkCount
  rw [if_neg (by simp [hf]), hs]
  dsimp only
  split
  · rfl
  split
  · rfl
  · rw [pure_bind]

/-- A call fails with a report, or yields a value of which only the type is known. -/
theorem call_typed {callee : Value} (opening : Token) (args : List Incoming)
    (h : callee.isFailed = false) :
    Meets (Value.call callee opening args)
      (fun v new => (v = .failed ∧ new ≠ []) ∨
        ∃ type inner, v = typed type (callee.text ++ "(" ++ inner ++ ")")) False := by
  cases hs : callee.signature? with
  | none =>
    unfold Value.call
    rw [if_neg (by simp [h]), hs]
    exact meets_report_pure (.inl ⟨rfl, by simp⟩)
  | some signature =>
    rw [call_eq h hs]
    refine (checkCount_runs _ _ _).bind fun _ _ _ => (checkAssignEach_runs _ args).bind ?_
    intro _ _ _
    exact meets_pure (.inr ⟨_, _, rfl⟩)

theorem call_meets {callee : Value} (opening : Token) (args : List Incoming)
    (h : callee.isFailed = false) :
    Meets (Value.call callee opening args) (Produced False) False := by
  refine (call_typed opening args h).mono (fun v new hv => ?_) id
  obtain ⟨rfl, hnew⟩ | ⟨type, inner, rfl⟩ := hv
  · exact .failed hnew
  · exact .made (.unknown _) (by simp [isFailed, typed]) rfl

theorem invalid_meets (stop : Stop) :
    Meets (Value.invalid stop)
      (fun v new => v = .failed ∧ new = [⟨.invalidSyntax stop.token, stop.position⟩]) False :=
  meets_report_pure ⟨rfl, rfl⟩

/-- A bracket that is not closed is reported, unless an item failed. -/
theorem unclosedGroup_meets (items : List Value) (stop : Stop) :
    Meets (Value.unclosedGroup items stop)
      (fun v new => v = .failed ∧ (new ≠ [] ∨ ∃ v ∈ items, v.isFailed)) False := by
  unfold Value.unclosedGroup
  split
  · rename_i h
    refine meets_pure ⟨rfl, .inr ?_⟩
    simpa using (Bool.and_eq_true_iff.1 h).2
  · exact (invalid_meets stop).mono (fun _ _ h => ⟨h.1, .inl (by simp [h.2])⟩) id

/-- A bracket that is not closed is reported, unless something was reported of an
argument. -/
theorem unclosedCall_meets (args : List Incoming) (stop : Stop) :
    Meets (Value.unclosedCall args stop)
      (fun v new => v = .failed ∧ (new ≠ [] ∨ ∃ a ∈ args, a.reported)) False := by
  unfold Value.unclosedCall
  split
  · rename_i h
    refine meets_pure ⟨rfl, .inr ?_⟩
    obtain ⟨a, ha, hr⟩ := (Option.any_eq_true _ _).1 (Bool.and_eq_true_iff.1 h).2
    exact ⟨a, List.mem_of_getLast? ha, hr⟩
  · exact (invalid_meets stop).mono (fun _ _ h => ⟨h.1, .inl (by simp [h.2])⟩) id

end Value

/-! ## 2. The relation -/

mutual

/-- The expression has the value `v`, and finding it out reports `new`. -/
inductive Evaluates (env : Env) : Expr → Value → List Diagnostic → Prop
  | number {t v new} (h : Runs (Value.number t) v new) : Evaluates env (.number t) v new
  | literal {t} : Evaluates env (.literal t) (.ofLiteral t) []
  | name {t v new} (h : Runs (Value.name env t) v new) : Evaluates env (.name t) v new
  /-- An item failed. -/
  | groupFailed {opening items args new} (h : EvaluatesAll env items args new)
      (hf : ∃ a ∈ args, a.value.isFailed) : Evaluates env (.group opening items none) .failed new
  /-- Brackets around one value only change its text. -/
  | grouped {opening items arg new} (h : EvaluatesAll env items [arg] new)
      (hf : arg.value.isFailed = false) :
      Evaluates env (.group opening items none)
        { arg.value with text := "(" ++ arg.value.text ++ ")" } new
  /-- Brackets around several values, or none, make a tuple. -/
  | tuple {opening items args new} (h : EvaluatesAll env items args new)
      (hf : ∀ a ∈ args, a.value.isFailed = false) (hn : args.length ≠ 1) :
      Evaluates env (.group opening items none)
        (.tuple (args.map (·.value)) ("(" ++ Value.texts (args.map (·.value)) ++ ")")) new
  /-- The bracket is not closed. -/
  | unclosedGroup {opening items stop args new v own} (h : EvaluatesAll env items args new)
      (hv : Runs (Value.unclosedGroup (args.map (·.value)) stop) v own) :
      Evaluates env (.group opening items (some stop)) v (new ++ own)
  /-- A failed operand stays as it is. -/
  | prefixFailed {operator operand v new} (h : Evaluates env operand v new) (hf : v.isFailed) :
      Evaluates env (.prefixed operator operand) v new
  | prefixed {operator operand w new v own} (h : Evaluates env operand w new)
      (hf : w.isFailed = false) (hv : Runs (Value.prefixed env operator w) v own) :
      Evaluates env (.prefixed operator operand) v (new ++ own)
  | binaryFailed {left operator right l r new more} (hl : Evaluates env left l new)
      (hr : Evaluates env right r more) (hf : l.isFailed ∨ r.isFailed) :
      Evaluates env (.binary left operator right) .failed (new ++ more)
  | binary {left operator right l r new more v own} (hl : Evaluates env left l new)
      (hr : Evaluates env right r more) (hfl : l.isFailed = false) (hfr : r.isFailed = false)
      (hv : Runs (resolve env.settings l operator r) v own) :
      Evaluates env (.binary left operator right) v (new ++ (more ++ own))
  /-- The arguments are evaluated even if there is nothing to call. -/
  | callFailed {callee opening args f as new more} (hc : Evaluates env callee f new)
      (ha : EvaluatesAll env args as more) (hf : f.isFailed) :
      Evaluates env (.call callee opening args none) .failed (new ++ more)
  | call {callee opening args f as new more v own} (hc : Evaluates env callee f new)
      (ha : EvaluatesAll env args as more) (hf : f.isFailed = false)
      (hv : Runs (Value.call f opening as) v own) :
      Evaluates env (.call callee opening args none) v (new ++ (more ++ own))
  /-- The bracket is not closed. -/
  | unclosedCall {callee opening args stop f as new more v own} (hc : Evaluates env callee f new)
      (ha : EvaluatesAll env args as more) (hv : Runs (Value.unclosedCall as stop) v own) :
      Evaluates env (.call callee opening args (some stop)) v (new ++ (more ++ own))
  /-- Nothing starts here. -/
  | invalid {stop} :
      Evaluates env (.invalid stop) .failed [⟨.invalidSyntax stop.token, stop.position⟩]
  /-- Tokens are left over. -/
  | trailing {e stop v new} (h : Evaluates env e v new) :
      Evaluates env (.trailing e stop) .failed
        (new ++ [⟨.invalidSyntax stop.token, stop.position⟩])

/-- The expressions have these values in turn, each with its place and with whether
finding it out reported anything. -/
inductive EvaluatesAll (env : Env) : List Expr → List Incoming → List Diagnostic → Prop
  | nil : EvaluatesAll env [] [] []
  | cons {e es v as new more} (h : Evaluates env e v new) (hs : EvaluatesAll env es as more) :
      EvaluatesAll env (e :: es) (⟨v, e.start, !new.isEmpty⟩ :: as) (new ++ more)

end

/-- A name has the value that it stands for. -/
theorem Evaluates.of_get? {env : Env} {t : Token} {v : Value}
    (h : env.scope.get? t.value = some v) : Evaluates env (.name t) v [] := by
  refine .name ?_
  rw [Value.name, h]
  exact runs_pure v

/-! ## 3. Facts about values -/

namespace Expr

mutual

/-- The tokens that a tree keeps: those that stand for something by themselves,
operators, and opening brackets. -/
def tokens : Expr → List Token
  | .number t | .literal t | .name t => [t]
  | .group opening items _ => opening :: tokensAll items
  | .prefixed operator operand => operator :: tokens operand
  | .binary left operator right => tokens left ++ operator :: tokens right
  | .call callee opening args _ => tokens callee ++ opening :: tokensAll args
  | .invalid _ => []
  | .trailing e _ => tokens e
termination_by structural e => e

def tokensAll : List Expr → List Token
  | [] => []
  | e :: es => tokens e ++ tokensAll es
termination_by structural es => es

end

end Expr

section

variable {P : Value → Prop} {shifts : Prop}

/-- A condition on values that evaluation keeps: it holds of what nodes make, whatever
the text, and passes from items to their tuple. With `shifts` nodes make what shifts
make. -/
structure Kept (shifts : Prop) (P : Value → Prop) : Prop where
  made : ∀ v : Value, Made shifts v.type v.const → v.components = [] → P v
  text : ∀ (v : Value) (text : String), P v → P { v with text := text }
  tuple : ∀ (items : List Value) (text : String), (∀ v ∈ items, P v) → P (.tuple items text)

namespace Kept

theorem failed (k : Kept shifts P) : P .failed := k.made _ (.unknown _) rfl

theorem produced (k : Kept shifts P) {shifts' : Prop} {v : Value} {new : List Diagnostic}
    (h : Produced shifts' v new) (hs : shifts' → shifts) : P v := by
  cases h with
  | failed h => exact k.failed
  | made hmade hfailed hcomponents => exact k.made _ (hmade.mono hs) hcomponents

theorem ofLiteral (k : Kept shifts P) (t : Token) : P (.ofLiteral t) := by
  unfold Value.ofLiteral
  split
  · exact k.made _ (.text _) rfl
  · exact k.made _ (.truth rfl _) rfl
  · exact k.made _ (.truth rfl _) rfl
  · exact k.made _ (.unknown _) rfl

end Kept

variable {env : Env}

mutual

/-- What is kept, and holds in the scope, holds of the value of every expression whose
shifts are allowed for. -/
theorem Evaluates.keeps (k : Kept shifts P) (hscope : env.scope.All P) {e : Expr} {v : Value}
    {new : List Diagnostic} (hs : ∀ t ∈ e.tokens, t.Shifts → shifts) :
    Evaluates env e v new → P v
  | .number h => k.produced ((Value.number_meets _).of_runs h) False.elim
  | .literal => k.ofLiteral _
  | .name h => by
    rcases (Value.name_meets env _).of_runs h with hv | ⟨rfl, -⟩
    · exact hscope _ _ hv
    · exact k.failed
  | .groupFailed _ _ | .callFailed _ _ _ | .invalid | .trailing _ | .binaryFailed _ _ _ => k.failed
  | .grouped h _ => by
    have := EvaluatesAll.keeps k hscope (fun t ht => hs t (by simp [Expr.tokens, ht])) h
    exact k.text _ _ (this _ (List.mem_singleton_self _))
  | .tuple h _ _ => by
    have := EvaluatesAll.keeps k hscope (fun t ht => hs t (by simp [Expr.tokens, ht])) h
    exact k.tuple _ _ (by simpa using this)
  | .unclosedGroup _ hv => ((Value.unclosedGroup_meets _ _).of_runs hv).1 ▸ k.failed
  | .prefixFailed h _ => h.keeps k hscope fun t ht => hs t (by simp [Expr.tokens, ht])
  | .prefixed _ hf hv => k.produced ((Value.prefixed_meets env _ hf).of_runs hv) False.elim
  | .binary _ _ hfl hfr hv =>
    k.produced ((resolve_meets env.settings _ _ _).of_runs hv).produced
      fun ht => hs _ (by simp [Expr.tokens]) ht
  | .call _ _ hf hv => k.produced ((Value.call_meets _ _ hf).of_runs hv) False.elim
  | .unclosedCall _ _ hv => ((Value.unclosedCall_meets _ _).of_runs hv).1 ▸ k.failed

theorem EvaluatesAll.keeps (k : Kept shifts P) (hscope : env.scope.All P) {es : List Expr}
    {args : List Incoming} {new : List Diagnostic}
    (hs : ∀ t ∈ Expr.tokensAll es, t.Shifts → shifts) :
    EvaluatesAll env es args new → ∀ a ∈ args, P a.value
  | .nil => by simp
  | .cons h h' => by
    have hv := h.keeps k hscope fun t ht => hs t (by simp [Expr.tokensAll, ht])
    have hall := h'.keeps k hscope fun t ht => hs t (by simp [Expr.tokensAll, ht])
    simpa using ⟨hv, hall⟩

end

end

/-- The value of a closed bracket. -/
theorem Evaluates.of_group {env : Env} (opening : Token) {items : List Expr}
    {args : List Incoming} {new : List Diagnostic} (h : EvaluatesAll env items args new) :
    Evaluates env (.group opening items none) (Value.group (args.map (·.value))) new := by
  unfold Value.group
  split
  · rename_i hf
    exact .groupFailed h (by simpa using hf)
  · rename_i hf
    have hok : ∀ a ∈ args, a.value.isFailed = false := by simpa using hf
    split
    · rename_i v hv
      obtain ⟨arg, rfl, rfl⟩ := List.map_eq_singleton_iff.1 hv
      exact .grouped h (hok arg (List.mem_singleton_self _))
    · rename_i hn
      refine .tuple h hok fun hlen => ?_
      obtain ⟨arg, rfl⟩ := List.length_eq_one_iff.1 hlen
      exact hn arg.value rfl

theorem kept_exact : Kept True Value.Exact where
  made v hm _ c hc := Ty.Admits.exact (Made.admits (hc ▸ hm))
  text _ _ h := h
  tuple _ _ _ _ hc := by cases hc

/-- Over an exact scope every expression has an exact value. -/
theorem Evaluates.exact {env : Env} {e : Expr} {v : Value} {new : List Diagnostic}
    (h : Evaluates env e v new) (hs : env.scope.Exact) : v.Exact :=
  h.keeps kept_exact hs fun _ _ _ => trivial

/-! ## 4. Failure -/

/-- No name stands for a failed expression. -/
def Scope.NoneFailed (s : Scope) : Prop := s.All fun v => v.isFailed = false

theorem Produced.reported {shifts : Prop} {v : Value} {new : List Diagnostic}
    (h : Produced shifts v new) (hf : v.isFailed) : v = .failed ∧ new ≠ [] := by
  cases h with
  | failed h => exact ⟨rfl, h⟩
  | made _ hfailed _ => simp [hfailed] at hf

/-- An argument of which something was reported. -/
theorem EvaluatesAll.ne_nil {env : Env} {es : List Expr} {args : List Incoming}
    {new : List Diagnostic} (h : EvaluatesAll env es args new) {a : Incoming} (ha : a ∈ args)
    (hr : a.reported) : new ≠ [] := by
  induction args generalizing es new with
  | nil => cases ha
  | cons b bs ih =>
    cases h with
    | cons hv hs =>
      rcases List.mem_cons.1 ha with rfl | ha
      · -- it is the first one, and its flag says that its own part is not empty
        rintro h
        simp_all
      · exact List.append_ne_nil_of_right_ne_nil _ (ih hs ha)

section

variable {env : Env}

mutual

/-- What failed was reported, and there is one failed value only. -/
theorem Evaluates.reported (hs : env.scope.NoneFailed) {e : Expr} {v : Value}
    {new : List Diagnostic} :
    Evaluates env e v new → v.isFailed → v = .failed ∧ new ≠ []
  | .number h => ((Value.number_meets _).of_runs h).reported
  | .literal => by simp [Value.isFailed_ofLiteral]
  | .name h => by
    intro hf
    rcases (Value.name_meets env _).of_runs h with hv | ⟨rfl, hne⟩
    · simp [hs _ _ hv] at hf
    · exact ⟨rfl, hne⟩
  | .groupFailed h hfa => by
    obtain ⟨a, ha, hfa⟩ := hfa
    exact fun _ => ⟨rfl, h.ne_nil ha (h.reported hs a ha hfa)⟩
  | .grouped _ _ | .tuple _ _ _ => by simp [Value.isFailed, Value.tuple, Value.typed]
  | .unclosedGroup h hv => by
    rintro -
    obtain ⟨rfl, hne | ⟨v, hmem, hf⟩⟩ := (Value.unclosedGroup_meets _ _).of_runs hv
    · exact ⟨rfl, List.append_ne_nil_of_right_ne_nil _ hne⟩
    · obtain ⟨a, ha, rfl⟩ := List.mem_map.1 hmem
      exact ⟨rfl, List.append_ne_nil_of_left_ne_nil (h.ne_nil ha (h.reported hs a ha hf)) _⟩
  | .prefixFailed h _ => h.reported hs
  | .prefixed _ hf hv => fun hfv => by
    obtain ⟨rfl, hne⟩ := ((Value.prefixed_meets env _ hf).of_runs hv).reported hfv
    exact ⟨rfl, List.append_ne_nil_of_right_ne_nil _ hne⟩
  | .binaryFailed hl hr hf => by
    rintro -
    rcases hf with hf | hf
    · exact ⟨rfl, List.append_ne_nil_of_left_ne_nil (hl.reported hs hf).2 _⟩
    · exact ⟨rfl, List.append_ne_nil_of_right_ne_nil _ (hr.reported hs hf).2⟩
  | .binary _ _ _ _ hv => fun hfv => by
    obtain ⟨rfl, hne⟩ := ((resolve_meets env.settings _ _ _).of_runs hv).produced.reported hfv
    exact ⟨rfl, by simp [hne]⟩
  | .callFailed hc _ hf => fun _ =>
    ⟨rfl, List.append_ne_nil_of_left_ne_nil (hc.reported hs hf).2 _⟩
  | .call _ _ hf hv => fun hfv => by
    obtain ⟨rfl, hne⟩ := ((Value.call_meets _ _ hf).of_runs hv).reported hfv
    exact ⟨rfl, by simp [hne]⟩
  | .unclosedCall _ ha hv => by
    rintro -
    obtain ⟨rfl, hne | ⟨a, hmem, hr⟩⟩ := (Value.unclosedCall_meets _ _).of_runs hv
    · exact ⟨rfl, by simp [hne]⟩
    · exact ⟨rfl, by simp [ha.ne_nil hmem hr]⟩
  | .invalid => fun _ => ⟨rfl, by simp⟩
  | .trailing _ => fun _ => ⟨rfl, by simp⟩

theorem EvaluatesAll.reported (hs : env.scope.NoneFailed) {es : List Expr}
    {args : List Incoming} {new : List Diagnostic} :
    EvaluatesAll env es args new → ∀ a ∈ args, a.value.isFailed → a.reported
  | .nil => by simp
  | @EvaluatesAll.cons _ _ _ v _ new _ h h' => by
    intro a ha hf
    rcases List.mem_cons.1 ha with rfl | ha
    · simpa using (h.reported hs hf).2
    · exact h'.reported hs a ha hf

end

end

/-! ## 5. The evaluator -/

namespace Expr

variable (env : Env)

mutual

/-- The evaluator goes by the rules of the relation, whatever was reported before. It
faults only over a scope that is not exact. -/
theorem eval_meets : ∀ e : Expr, Meets (eval env e) (Evaluates env e) ¬env.scope.Exact
  | .number t => (Value.number_meets t).and_runs.of_faultless.mono (fun _ _ h => .number h.1) id
  | .literal t => meets_pure .literal
  | .name t => (Value.name_meets env t).and_runs.of_faultless.mono (fun _ _ h => .name h.1) id
  | .group opening items stop => by
    refine (evalItems_meets items).bind ?_
    rintro _ new ⟨args, hs, rfl⟩
    cases stop with
    | none => exact meets_pure (by simpa using Evaluates.of_group opening hs)
    | some stop =>
      exact (Value.unclosedGroup_meets _ stop).and_runs.of_faultless.mono
        (fun _ _ h => .unclosedGroup hs h.1) id
  | .prefixed operator operand => by
    refine (eval_meets operand).bind fun w new hw => ?_
    -- a failed operand is handed on, whatever the operator
    cases hf : w.isFailed with
    | true =>
      simp only [Value.prefixed, hf, if_true]
      exact meets_pure (by simpa using .prefixFailed hw hf)
    | false =>
      exact (Value.prefixed_meets env operator hf).and_runs.of_faultless.mono
        (fun _ _ h => .prefixed hw hf h.1) id
  | .binary left operator right => by
    refine (eval_meets left).bind fun l new hl => (eval_meets right).bind fun r more hr => ?_
    unfold Value.binary
    split
    · rename_i hf
      exact meets_pure (by simpa using .binaryFailed hl hr (by simpa using hf))
    · rename_i hf
      obtain ⟨hfl, hfr⟩ : l.isFailed = false ∧ r.isFailed = false := by simpa using hf
      exact (resolve_meets env.settings l operator r).and_runs.mono
        (fun _ _ h => .binary hl hr hfl hfr h.1)
        fun hn hs => hn ⟨hl.exact hs, hr.exact hs⟩
  | .call callee opening args stop => by
    refine (eval_meets callee).bind fun f new hc => (evalArgs_meets args).bind fun as more ha => ?_
    cases stop with
    | some stop =>
      exact (Value.unclosedCall_meets as stop).and_runs.of_faultless.mono
        (fun _ _ h => .unclosedCall hc ha h.1) id
    | none =>
      cases hf : f.isFailed with
      | true =>
        simp only [Value.call, hf, if_true]
        exact meets_pure (by simpa using .callFailed hc ha hf)
      | false =>
        exact (Value.call_meets opening as hf).and_runs.of_faultless.mono
          (fun _ _ h => .call hc ha hf h.1) id
  | .invalid stop => meets_report_pure .invalid
  | .trailing e stop => by
    refine (eval_meets e).bind fun w new hw => ?_
    exact meets_report_pure (.trailing hw)

theorem evalItems_meets : ∀ es : List Expr,
    Meets (evalItems env es)
      (fun vs new => ∃ args, EvaluatesAll env es args new ∧ vs = args.map (·.value))
      ¬env.scope.Exact
  | [] => meets_pure ⟨[], .nil, rfl⟩
  | e :: es => by
    refine (eval_meets e).bind fun v new hv => (evalItems_meets es).bind ?_
    rintro _ more ⟨args, hs, rfl⟩
    exact meets_pure ⟨_, by simpa using .cons hv hs, rfl⟩

theorem evalArgs_meets : ∀ es : List Expr,
    Meets (evalArgs env es) (EvaluatesAll env es) ¬env.scope.Exact
  | [] => meets_pure .nil
  | e :: es => by
    refine (Meets.watch (eval_meets e)).bind ?_
    rintro ⟨v, reported⟩ new ⟨hr, hv⟩
    refine (evalArgs_meets es).bind fun as more hs => ?_
    cases hr
    exact meets_pure (by simpa using .cons hv hs)

end

mutual

/-- What the relation says of an expression is what the evaluator does. -/
theorem runs_of_evaluates {e : Expr} {v : Value} {new : List Diagnostic} :
    Evaluates env e v new → Runs (eval env e) v new
  | .number h | .name h => h
  | .literal => runs_pure _
  | @Evaluates.groupFailed _ opening items args new h hf => by
    have hg : Value.group (args.map (·.value)) = .failed := by simp [Value.group, hf]
    exact (runsItems_of_evaluates h).bind_silent (hg ▸ runs_pure _)
  | @Evaluates.grouped _ opening items arg new h hf => by
    have hg : Value.group ([arg].map (·.value)) =
        { arg.value with text := "(" ++ arg.value.text ++ ")" } := by simp [Value.group, hf]
    exact (runsItems_of_evaluates h).bind_silent (hg ▸ runs_pure _)
  | @Evaluates.tuple _ opening items args new h hf hn => by
    have hg : Value.group (args.map (·.value)) =
        .tuple (args.map (·.value)) ("(" ++ Value.texts (args.map (·.value)) ++ ")") := by
      unfold Value.group
      rw [if_neg (by simpa using hf)]
      split
      · rename_i v hv
        exact absurd (by simpa using congrArg List.length hv) hn
      · rfl
    exact (runsItems_of_evaluates h).bind_silent (hg ▸ runs_pure _)
  | .unclosedGroup h hv => (runsItems_of_evaluates h).bind hv
  | @Evaluates.prefixFailed _ operator operand v new h hf => by
    have hp : Value.prefixed env operator v = pure v := by simp [Value.prefixed, hf]
    exact (runs_of_evaluates h).bind_silent (hp ▸ runs_pure v)
  | .prefixed h hf hv => (runs_of_evaluates h).bind hv
  | @Evaluates.binaryFailed _ left operator right l r new more hl hr hf => by
    have hb : Value.binary env l operator r = pure .failed := by simp [Value.binary, hf]
    exact (runs_of_evaluates hl).bind ((runs_of_evaluates hr).bind_silent (hb ▸ runs_pure _))
  | .binary hl hr hfl hfr hv => by
    refine (runs_of_evaluates hl).bind ((runs_of_evaluates hr).bind ?_)
    simpa [Value.binary, hfl, hfr] using hv
  | @Evaluates.callFailed _ callee opening args f as new more hc ha hf => by
    have hb : Value.call f opening as = pure .failed := by simp [Value.call, hf]
    exact (runs_of_evaluates hc).bind ((runsArgs_of_evaluates ha).bind_silent (hb ▸ runs_pure _))
  | .call hc ha hf hv => (runs_of_evaluates hc).bind ((runsArgs_of_evaluates ha).bind hv)
  | .unclosedCall hc ha hv => (runs_of_evaluates hc).bind ((runsArgs_of_evaluates ha).bind hv)
  | .invalid => (runs_report _ _).bind (runs_pure _)
  | .trailing h => (runs_of_evaluates h).bind ((runs_report _ _).bind (runs_pure _))

theorem runsItems_of_evaluates {es : List Expr} {args : List Incoming} {new : List Diagnostic} :
    EvaluatesAll env es args new → Runs (evalItems env es) (args.map (·.value)) new
  | .nil => runs_pure _
  | .cons h hs =>
    (runs_of_evaluates h).bind ((runsItems_of_evaluates hs).bind_silent (runs_pure _))

theorem runsArgs_of_evaluates {es : List Expr} {args : List Incoming} {new : List Diagnostic} :
    EvaluatesAll env es args new → Runs (evalArgs env es) args new
  | .nil => runs_pure _
  | .cons h hs =>
    (runs_of_evaluates h).watch.bind ((runsArgs_of_evaluates hs).bind_silent (runs_pure _))

end

/-- The relation describes the one run that the evaluator has. -/
theorem evaluates_iff_runs {env : Env} {e : Expr} {v : Value}
    {new : List Diagnostic} : Evaluates env e v new ↔ Runs (eval env e) v new :=
  ⟨runs_of_evaluates env, fun h => (eval_meets env e).of_runs h⟩

end Expr

/-- What a span evaluates to: the value of what is read of it, or the failed value if
nothing can be read. -/
inductive Evaluated (env : Env) (ts : List Token) : Value → List Diagnostic → Prop
  | tree {e : Expr} {v : Value} {new : List Diagnostic} (hparse : Expr.parse? ts = some e)
      (h : Evaluates env e v new) : Evaluated env ts v new
  | missing (hparse : Expr.parse? ts = none) :
      Evaluated env ts .failed [⟨.missingExpression, .null⟩]

theorem evaluate_meets (env : Env) (ts : List Token) :
    Meets (evaluate env ts) (Evaluated env ts) ¬env.scope.Exact := by
  unfold evaluate
  split
  · rename_i e he
    exact (Expr.eval_meets env e).mono (fun _ _ h => .tree he h) id
  · rename_i he
    exact meets_report_pure (.missing he)

end ExprCheck
