/-
ExprCheck.Proofs.Faultless — no run ends early.

A run ends early only at a remainder whose divisor is zero as an integer. Whether the
divisor is zero is asked of the constant in the form that it has, and the remainder is
taken of what it is converted to; the two agree on integers. So what keeps runs going
is that only integers stand for integer types, in the scope and then in everything
that is evaluated over it.

The statements here also say of every operation that it runs, or faults, in the same way
whatever was reported before. `appendOnly_of_operations` puts that as a law of the sink.
-/
import ExprCheck.ArraySize
import ExprCheck.Proofs.Built
import ExprCheck.Return

namespace ExprCheck

open Check

/-! ## 1. Spans -/

theorem evaluate_runs (env : Env) (ts : List Token) :
    RunsUnless (evaluate env ts) ¬env.scope.Exact :=
  (evaluate_meets env ts).mono (fun _ _ _ => trivial) id

theorem checkParts_meets (ts : List Token) (separator : Token.Kind) (mustHold : Bool) :
    Meets (Token.checkParts ts separator mustHold)
      (fun parts _ => parts = (Token.split ts separator mustHold).parts) False :=
  (runs_forM (fun _ => meets_report trivial) _).bind fun _ _ _ => meets_pure rfl

theorem checkParts_runs (ts : List Token) (separator : Token.Kind) (mustHold : Bool) :
    RunsUnless (Token.checkParts ts separator mustHold) False :=
  (checkParts_meets ts separator mustHold).mono (fun _ _ _ => trivial) id

/-! ## 2. Return statements -/

namespace Return

variable (env : Env)

theorem evalParts_runs (position : Position) (ts : List Token) :
    RunsUnless (evalParts env position ts) ¬env.scope.Exact := by
  unfold evalParts
  refine (checkParts_runs ts .comma true).of_faultless.bind fun _ _ _ => ?_
  exact runs_mapM (fun part =>
    (Meets.watch (evaluate_runs env part)).bind fun _ _ _ => meets_pure trivial) _

theorem checkSingle_runs (position : Position) (type : Ty) (returned : List Incoming) :
    RunsUnless (checkSingle position type returned) False := by
  have rest := Value.checkAssignEach_runs [type] returned
  unfold checkSingle
  dsimp only
  split
  · exact meets_report_bind rest
  · exact rest

theorem checkTuple_runs (position : Position) (types : List Ty) (tuple : Incoming) :
    RunsUnless (checkTuple position types tuple) False := by
  unfold checkTuple
  split
  · exact meets_pure trivial
  split
  · exact meets_report trivial
  split
  · exact meets_report trivial
  split
  · exact meets_report trivial
  · exact Value.checkAssignEach_runs _ _

theorem checkSeveral_runs (position : Position) (types : List Ty) (returned : List Incoming) :
    RunsUnless (checkSeveral position types returned) False := by
  have rest := Value.checkAssignEach_runs types returned
  unfold checkSeveral
  split
  · exact checkTuple_runs position types _
  · dsimp only
    split
    · exact meets_report_bind rest
    · exact rest

theorem readBack_runs (signature : Signature Ty) :
    RunsUnless (readBack env signature) ¬env.scope.Exact :=
  runs_mapM (fun _ => evaluate_runs env _) _

end Return

open Return in
theorem checkReturn_runs (env : Env) (signature : Signature Ty) (position : Position)
    (ts : List Token) :
    RunsUnless (checkReturn env signature position ts) ¬env.scope.Exact := by
  unfold checkReturn
  dsimp only
  split
  · split
    · exact readBack_runs env signature
    · split
      · exact meets_pure trivial
      · exact meets_report_pure trivial
  · have parts := evalParts_runs env position (Token.withoutEof ts)
    split
    · exact meets_report_bind (parts.bind fun _ _ _ => meets_pure trivial)
    · refine parts.bind fun returned _ _ => ?_
      split
      · exact (checkSeveral_runs position _ returned).of_faultless.bind fun _ _ _ =>
          meets_pure trivial
      · exact (checkSingle_runs position _ returned).of_faultless.bind fun _ _ _ =>
          meets_pure trivial

/-! ## 3. Array sizes -/

theorem resolveSize_runs (env : Env) (t : Ty) :
    RunsUnless (t.resolveSize env) ¬env.scope.Exact := by
  unfold Ty.resolveSize
  split
  · refine (evaluate_runs env _).bind fun v _ _ => ?_
    split
    · exact meets_pure trivial
    · exact meets_report_pure trivial
  · exact meets_pure trivial

/-! ## 4. Runs over built scopes -/

/-- In scopes that are built with integers only under integer types, only integers stand
for integer types. -/
theorem Scope.Built.exact {s : Scope} (hs : s.Built Ty.Exact) : s.Exact := by
  refine hs.all kept_exact fun name type c hc c' hc' => ?_
  cases hc'
  exact hc

/-- Over a scope in which only integers stand for integer types, and so over every scope
that is built with such constants, every span is evaluated, every return statement is
checked and every array size is resolved, whatever was reported before. -/
theorem runs_of_exact :
    (∀ s : Scope, s.Built Ty.Exact → s.Exact) ∧
    ∀ (s : Scope) (settings : Settings), s.Exact →
      (∀ ts, ∃ v new, Runs (evaluate ⟨s, settings⟩ ts) v new) ∧
      (∀ signature position ts,
        ∃ vs new, Runs (checkReturn ⟨s, settings⟩ signature position ts) vs new) ∧
      ∀ t : Ty, ∃ t' new, Runs (t.resolveSize ⟨s, settings⟩) t' new := by
  refine ⟨fun s hs => hs.exact, fun s settings hs => ?_⟩
  have hfault : ¬¬(Env.mk s settings).scope.Exact := fun h => h hs
  refine ⟨fun ts => ?_, fun signature position ts => ?_, fun t => ?_⟩
  · exact (evaluate_runs ⟨s, settings⟩ ts).exists_run hfault
  · exact (checkReturn_runs ⟨s, settings⟩ signature position ts).exists_run hfault
  · exact (resolveSize_runs ⟨s, settings⟩ t).exists_run hfault

/-- A remainder of two constants. -/
theorem runs_of_exact_remainder :
    let x := Token.synthetic .identifier "x"
    let percent := Token.synthetic .percent "%"
    let s := Scope.empty.declareConst "x" (Ty.number .u8) (.signed 5)
    s.Exact ∧ ∃ v new, Runs (evaluate ⟨s, .default⟩ [x, percent, x]) v new := by
  intro x percent s
  have hbuilt : s.Built Ty.Exact := .declareConst .empty "x" fun _ => rfl
  have hs : s.Exact := runs_of_exact.1 s hbuilt
  exact ⟨hs, (runs_of_exact.2 s .default hs).1 _⟩

/-! ## 5. Earlier reports -/

/-- Every operation adds to the sink what it would report with nothing in it, and comes to
the same result: cutting a span, a binary operation, an expression, an assignment, a
return statement and the size of an array. -/
theorem appendOnly_of_operations :
    (∀ ts separator mustHold, AppendOnly (Token.checkParts ts separator mustHold)) ∧
    (∀ settings left token right, AppendOnly (resolve settings left token right)) ∧
    (∀ env ts, AppendOnly (evaluate env ts)) ∧
    (∀ ignoreAny target incoming, AppendOnly (checkAssign ignoreAny target incoming)) ∧
    (∀ env signature position ts, AppendOnly (checkReturn env signature position ts)) ∧
    ∀ env (t : Ty), AppendOnly (t.resolveSize env) := by
  refine ⟨fun ts separator mustHold => ?_, fun settings left token right => ?_,
    fun env ts => ?_, fun ignoreAny target incoming => ?_,
    fun env signature position ts => ?_, fun env t => ?_⟩
  · exact appendOnly_iff.2 (checkParts_runs ts separator mustHold).anyhow
  · exact appendOnly_iff.2 (resolve_meets settings left token right).anyhow
  · exact appendOnly_iff.2 (evaluate_runs env ts).anyhow
  · exact appendOnly_iff.2 (Value.checkAssign_runs ignoreAny target incoming).anyhow
  · exact appendOnly_iff.2 (checkReturn_runs env signature position ts).anyhow
  · exact appendOnly_iff.2 (resolveSize_runs env t).anyhow

end ExprCheck
