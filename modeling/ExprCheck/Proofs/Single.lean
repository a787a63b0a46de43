/-
ExprCheck.Proofs.Single — single values, returned and passed.

A statement that returns one value and a call with one argument ask the same of the value:
whether anything is wrong with storing it in the type that is declared (`Value.misfits`).
The statement reports that at itself and the call where the argument starts.

They come to the question by different ways. The call is read as a tree. The statement is
cut at commas, which leaves a sentence in one piece, and is then routed by the components
of the declared type. That is where they part: a pointer to a tuple has the components of
the tuple, so a statement asks for a tuple where a call asks for a pointer.
-/
import ExprCheck.Proofs.Compatible
import ExprCheck.Proofs.Returned
import ExprCheck.Proofs.Sentences

namespace ExprCheck

open Check

/-! ## 1. Calls -/

theorem checkAssignEach_run_one (target : Ty) (v : Value) (position : Position) :
    Runs (checkAssignEach [target] [⟨v, position, false⟩]) () (v.misfits target position) :=
  (checkAssign_run target v position).bind_silent (runs_pure ())

/-- A variable that holds a function has the function's signature. -/
theorem Value.signature?_place (signature : Signature Ty) (name : String) :
    (Value.place (Ty.funcOf signature) name).signature? = some signature :=
  if_pos (Ty.isFunc_funcOf signature)

/-- A function of one parameter judges its argument by the parameter's type. -/
theorem Value.call_run_one {f : Value} {signature : Signature Ty}
    (hf : f.signature? = some signature) {t : Ty} (ht : signature.params.map (·.type) = [t])
    (opening : Token) (v : Value) (position : Position) :
    ∃ w, Runs (Value.call f opening [⟨v, position, false⟩]) w (v.misfits t position) := by
  have hfailed : f.isFailed = false := by
    refine Value.isFailed_of_not_isVoid ?_
    have hfunc : f.type.isFunc := (Option.ite_none_right_eq_some.1 hf).1
    simp_all [Ty.isFunc, Ty.isVoid]
  have hlength : signature.params.length = 1 := by
    rw [← List.length_map (fun p : Parameter Ty => p.type), ht, List.length_singleton]
  have hcount : Silent (checkCount signature.params.length 1 opening.position) () := by
    rw [hlength]
    exact runs_pure ()
  rw [Value.call_eq hfailed hf, ht]
  exact ⟨_, hcount.bind ((checkAssignEach_run_one t v position).bind_silent (runs_pure _))⟩

/-- The span of a call with one argument. -/
theorem evaluate_call_run_one {env : Env} {fs : List Token} {callee : Expr}
    (hfs : Derives .call fs callee) {f : Value} (hf : Silent (evaluate env fs) f)
    {signature : Signature Ty} (hsignature : f.signature? = some signature) {t : Ty}
    (ht : signature.params.map (·.type) = [t]) {ts : List Token} {e : Expr}
    (hts : Derives .or ts e) {v : Value} (hv : Silent (evaluate env ts) v)
    {opening closing : Token} (ho : opening.kind = .openParen) (hc : closing.kind = .closeParen) :
    ∃ w, Runs (evaluate env (fs ++ opening :: (ts ++ [closing]))) w (v.misfits t e.start) := by
  have hcall : Derives .call (fs ++ opening :: (ts ++ [closing])) (.call callee opening [e] none) :=
    .call hfs ho (.items (.one hts)) hc
  rw [(hfs.loosen (by decide)).evaluate_eq] at hf
  rw [hts.evaluate_eq] at hv
  obtain ⟨w, hw⟩ := Value.call_run_one hsignature ht opening v e.start
  refine ⟨w, ?_⟩
  rw [(hcall.loosen (by decide)).evaluate_eq]
  have hargs : Silent (Expr.evalArgs env [e]) [⟨v, e.start, false⟩] :=
    hv.watch.bind (runs_pure _)
  exact hf.bind (hargs.bind hw)

/-! ## 2. Statements -/

namespace Return

variable {env : Env} {position : Position} {ts : List Token} {e : Expr} {v : Value}

/-- A sentence supplies its value. -/
theorem silent_evalParts_one (hts : Derives .or ts e) (hv : Silent (evaluate env ts) v) :
    Silent (evalParts env position ts) [⟨v, position, false⟩] := by
  have hsplit := hts.split_eq
  refine silent_evalParts_iff.2 ⟨[v], ⟨by rw [hsplit], ?_⟩, rfl⟩
  rw [hsplit]
  exact .cons hv .nil

end Return

section

variable {env : Env} {signature : Signature Ty} {position : Position} {ts : List Token}
  {e : Expr} {v : Value}

open Return in
/-- A function that returns a single value judges it by the type that it returns. -/
theorem checkReturn_run_one (hvoid : signature.result.isVoid = false)
    (hnone : signature.result.components? = none) (hts : Derives .or ts e)
    (hv : Silent (evaluate env ts) v) :
    Runs (checkReturn env signature position ts) [v] (v.misfits signature.result position) := by
  have hempty : ¬ts.isEmpty := by simpa using hts.ne_nil
  unfold checkReturn
  simp only [hts.withoutEof_eq, if_neg hempty, hvoid, hnone, Bool.false_eq_true, if_false]
  have hsingle : Runs (checkSingle position signature.result [⟨v, position, false⟩]) ()
      (v.misfits signature.result position) :=
    checkAssignEach_run_one signature.result v position
  exact (silent_evalParts_one hts hv).bind (hsingle.bind_silent (runs_pure _))

/-- A function that returns a pointer to a tuple is taken for one that returns the tuple. -/
theorem checkReturn_eq_unpointed {types : List Ty}
    (htypes : signature.result.components? = some types) (hts : Token.withoutEof ts ≠ []) :
    checkReturn env signature position ts =
      checkReturn env { signature with result := { signature.result with pointers := 0 } }
        position ts := by
  let bare : Signature Ty := { signature with result := { signature.result with pointers := 0 } }
  have hbare : bare.result.components? = some types := htypes
  exact (checkReturn_several htypes hts).trans (checkReturn_several hbare hts).symm

open Return in
/-- A function that returns a tuple, or a pointer to one, does not take a value that is
no tuple. -/
theorem checkReturn_run_no_tuple {types : List Ty}
    (htypes : signature.result.components? = some types) (hts : Derives .or ts e)
    (hv : Silent (evaluate env ts) v) (htuple : v.type.isTuple = false) :
    Runs (checkReturn env signature position ts) [v] [⟨.missingReturn, position⟩] := by
  have hseveral : Runs (checkSeveral position types [⟨v, position, false⟩]) ()
      [⟨.missingReturn, position⟩] := by
    unfold checkSeveral checkTuple
    simp only [htuple, Bool.false_eq_true, if_false]
    exact runs_report _ _
  rw [checkReturn_several htypes hts.withoutEof_ne_nil, hts.withoutEof_eq]
  exact (silent_evalParts_one hts hv).bind (hseveral.bind_silent (runs_pure _))

end

/-- A single value is judged alike when it is returned and when it is passed: what is
reported is what is wrong with storing it in the declared type. Only a pointer to a tuple
is another matter. A statement takes it for the tuple, and reports of every value that is
no tuple itself that there are values missing. -/
theorem returned_as_passed (env : Env) {t : Ty} (htuple : t.isTuple = false)
    (hvoid : t.isVoid = false) {ts : List Token} {e : Expr} (hts : Derives .or ts e) {v : Value}
    (hv : Silent (evaluate env ts) v) {signature : Signature Ty} (hresult : signature.result = t)
    (position : Position) {fs : List Token} {callee : Expr} (hfs : Derives .call fs callee)
    {f : Value} (hf : Silent (evaluate env fs) f) {called : Signature Ty}
    (hcalled : f.signature? = some called) (hparams : called.params.map (·.type) = [t])
    {opening closing : Token} (ho : opening.kind = .openParen) (hc : closing.kind = .closeParen) :
    (∀ place, Runs (checkAssign false t ⟨v, place, false⟩) () (v.misfits t place)) ∧
      (∃ w, Runs (evaluate env (fs ++ opening :: (ts ++ [closing]))) w (v.misfits t e.start)) ∧
      (t.components? = none →
        Runs (checkReturn env signature position ts) [v] (v.misfits t position)) ∧
      ∀ types, t.components? = some types →
        checkReturn env signature position ts =
            checkReturn env { signature with result := { t with pointers := 0 } } position ts ∧
          (v.type.isTuple = false →
            Runs (checkReturn env signature position ts) [v] [⟨.missingReturn, position⟩]) := by
  subst hresult
  refine ⟨checkAssign_run _ v, evaluate_call_run_one hfs hf hcalled hparams hts hv ho hc,
    fun hnone => checkReturn_run_one hvoid hnone hts hv, fun types htypes => ?_⟩
  exact ⟨checkReturn_eq_unpointed htypes hts.withoutEof_ne_nil, checkReturn_run_no_tuple htypes hts hv⟩

/-- A truth value is no integer, whether it is returned or passed. -/
theorem returned_as_passed_bool :
    let t := Ty.number .i32
    let x := Token.synthetic .identifier "x"
    let f := Token.synthetic .identifier "f"
    let opening := Token.synthetic .openParen "("
    let closing := Token.synthetic .closeParen ")"
    let called : Signature Ty := ⟨"f", [⟨"n", t⟩], Ty.bool, []⟩
    let signature : Signature Ty := ⟨"g", [], t, []⟩
    let env : Env := ⟨(Scope.empty.declare "x" Ty.bool).declare "f" (Ty.funcOf called), .default⟩
    let wrong : List Diagnostic := [⟨.incompatibleType "i32" "bool", .null⟩]
    t.isTuple = false ∧ t.isVoid = false ∧
      Runs (checkReturn env signature .null [x]) [Value.place Ty.bool "x"] wrong ∧
      ∃ w, Runs (evaluate env [f, opening, x, closing]) w wrong := by
  intro t x f opening closing called signature env wrong
  have hx : Silent (evaluate env [x]) (.place Ty.bool "x") := silent_evaluate_name rfl rfl
  have hf : Silent (evaluate env [f]) (.place (Ty.funcOf called) "f") := silent_evaluate_name rfl rfl
  have htree : Derives .or [x] (.name x) := (Derives.name rfl).loosen (by decide)
  have hcallee : Derives .call [f] (.name f) := (Derives.name rfl).loosen (by decide)
  have hresult : signature.result = t := rfl
  have ho : opening.kind = .openParen := rfl
  have hc : closing.kind = .closeParen := rfl
  obtain ⟨-, hpassed, hreturned, -⟩ := returned_as_passed env rfl rfl htree hx hresult .null
    hcallee hf (Value.signature?_place called "f") rfl ho hc
  exact ⟨rfl, rfl, hreturned rfl, hpassed⟩

/-- A pointer to a pair is passed without a report, and is not returned without one. -/
theorem passed_not_returned :
    let t := Ty.pointerTo (Ty.tupleOf [Ty.number .i32, Ty.number .i32])
    let p := Token.synthetic .identifier "p"
    let f := Token.synthetic .identifier "f"
    let opening := Token.synthetic .openParen "("
    let closing := Token.synthetic .closeParen ")"
    let called : Signature Ty := ⟨"f", [⟨"n", t⟩], Ty.bool, []⟩
    let signature : Signature Ty := ⟨"g", [], t, []⟩
    let env : Env := ⟨(Scope.empty.declare "p" t).declare "f" (Ty.funcOf called), .default⟩
    t.isTuple = false ∧ t.isVoid = false ∧
      Silent (evaluate env [p]) (.place t "p") ∧
      Silent (checkAssign false t ⟨.place t "p", .null, false⟩) () ∧
      (∃ w, Silent (evaluate env [f, opening, p, closing]) w) ∧
      Runs (checkReturn env signature .null [p]) [.place t "p"] [⟨.missingReturn, .null⟩] := by
  intro t p f opening closing called signature env
  have hp : Silent (evaluate env [p]) (.place t "p") := silent_evaluate_name rfl rfl
  have hf : Silent (evaluate env [f]) (.place (Ty.funcOf called) "f") := silent_evaluate_name rfl rfl
  have htree : Derives .or [p] (.name p) := (Derives.name rfl).loosen (by decide)
  have hcallee : Derives .call [f] (.name f) := (Derives.name rfl).loosen (by decide)
  have ho : opening.kind = .openParen := rfl
  have hc : closing.kind = .closeParen := rfl
  have hfits : (Value.place t "p").misfits t .null = [] := by decide
  have hstored := checkAssign_run t (.place t "p") .null
  obtain ⟨w, hpassed⟩ : ∃ w, Runs (evaluate env [f, opening, p, closing]) w
      ((Value.place t "p").misfits t .null) :=
    evaluate_call_run_one hcallee hf (Value.signature?_place called "f") rfl htree hp ho hc
  have htypes : signature.result.components? = some [Ty.number .i32, Ty.number .i32] := rfl
  have hreturned := @checkReturn_run_no_tuple env signature .null _ _ _ _ htypes htree hp rfl
  rw [hfits] at hstored hpassed
  exact ⟨rfl, rfl, hp, hstored, ⟨w, hpassed⟩, hreturned⟩

end ExprCheck
