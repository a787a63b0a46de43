/-
ExprCheck.Proofs.Built — scopes as they are built up.

A scope starts empty, and then variables are declared, constants, and values that a
span was evaluated to over a scope that was built before. `Scope.Built.all` is the
induction over that: what evaluation keeps holds of every value in scope, if it holds
of the constants that were declared.
-/
import ExprCheck.Proofs.Evaluates

namespace ExprCheck

/-- The scope was built by declarations, with constants that are `ok` under their
types. -/
inductive Scope.Built (ok : Ty → Constant → Prop) : Scope → Prop
  | empty : Built ok .empty
  | declare {s : Scope} (hs : Built ok s) (name : String) (type : Ty) :
      Built ok (s.declare name type)
  | declareConst {s : Scope} (hs : Built ok s) (name : String) {type : Ty} {c : Constant}
      (hc : ok type c) : Built ok (s.declareConst name type c)
  /-- The value of a span, over a scope that need not be the present one. -/
  | value {s before : Scope} {settings : Settings} {ts : List Token} {ds ds' : Diagnostics}
      {v : Value} (hs : Built ok s) (hbefore : Built ok before)
      (hrun : (evaluate ⟨before, settings⟩ ts).run ds = .ok (v, ds')) (name : String) :
      Built ok (s.insert name v)

variable {P : Value → Prop}

/-- What is kept holds of the value of every span. -/
theorem Evaluated.keeps (k : Kept True P) {env : Env} (hscope : env.scope.All P)
    {ts : List Token} {v : Value} {new : List Diagnostic} (h : Evaluated env ts v new) : P v := by
  cases h with
  | tree _ h => exact h.keeps k hscope fun _ _ _ => trivial
  | missing => exact k.failed

/-- What is kept holds in every scope that is built with constants of which it holds. -/
theorem Scope.Built.all {ok : Ty → Constant → Prop} (k : Kept True P)
    (hok : ∀ name type c, ok type c → P { Value.ofConstant type c with text := name })
    {s : Scope} (hs : s.Built ok) : s.All P := by
  induction hs with
  | empty => exact Scope.all_empty
  | declare _ name type ih => exact ih.insert name (k.made _ (.unknown _) rfl)
  | declareConst _ name hc ih => exact ih.insert name (hok name _ _ hc)
  | @value _ before settings ts _ _ _ _ _ hrun name ih ihbefore =>
    obtain ⟨new, -, hv⟩ := (evaluate_meets ⟨before, settings⟩ ts).of_run hrun
    exact ih.insert name (hv.keeps k ihbefore)

end ExprCheck
