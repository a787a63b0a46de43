/-
ExprCheck.Proofs.Failures — what fails is reported.

A node that is made of a failed part fails without a report of its own, and an unclosed bracket
is not reported where an item of it failed. So a failed value can be many nodes away from the
problem that it comes from, and what keeps it from being passed over is that there always is
one. At a single operator that is plain from how the operation ended (`resolve_reports`). For
expressions it is the induction of `Evaluates.reported`, and a name must not stand for a failed
value, which no name with a text does (`evaluate_reports`).
-/
import ExprCheck.Proofs.Written

namespace ExprCheck

open Check

/-- A binary operation reports at most one problem, at its operator. It yields the failed value
if and only if that problem is one of those that refuse it: the operator is no binary one, or
the operands do not go together, or they do not take the operator. Every other value has a type
that is not `void`, and a text. -/
theorem resolve_reports (settings : Settings) (left : Value) (token : Token) (right : Value) :
    Meets (resolve settings left token right)
      (fun v new => new.length ≤ 1 ∧ (∀ d ∈ new, d.position = token.position) ∧
        (v = .failed ↔ ∃ d ∈ new, d.problem.refuses) ∧
        (v ≠ .failed → v.type.isVoid = false ∧ v.text ≠ ""))
      ¬(left.Exact ∧ right.Exact) := by
  refine (resolve_meets settings left token right).and_runs.mono ?_ id
  rintro v new ⟨hrun, hresolved⟩
  have hwritten := (resolve_written settings left token right).of_runs hrun
  obtain ⟨hlength, hposition⟩ := hresolved.reports
  refine ⟨hlength, hposition, ?_⟩
  cases hresolved with
  | refused h => exact ⟨by simpa using h, fun hne => absurd rfl hne⟩
  | made hnew _ hvoid =>
    have hne : v ≠ .failed := by
      rintro rfl
      cases hvoid
    have hvalue : v.type.isVoid = false ∧ v.text ≠ "" := ⟨hvoid, fun h => hne (hwritten h)⟩
    rcases hnew with rfl | ⟨p, hp, rfl⟩
    · exact ⟨by simpa using hne, fun _ => hvalue⟩
    · exact ⟨by simpa [hp] using hne, fun _ => hvalue⟩

/-- Over a scope in which every value has a text, the evaluation of a span that yields a value
of type `void` without a text has reported something itself, and the value is the failed one. -/
theorem evaluate_reports (env : Env) (hscope : env.scope.Written) (ts : List Token) :
    Meets (evaluate env ts) (fun v new => v.isFailed → v = .failed ∧ new ≠ [])
      ¬env.scope.Exact := by
  refine (evaluate_meets env ts).mono ?_ id
  intro v new h
  cases h with
  | tree _ h => exact h.reported hscope.noneFailed
  | missing => exact fun _ => ⟨rfl, List.cons_ne_nil _ _⟩

/-- An unknown name in a bracket that is not closed: the name is all that is reported. -/
theorem evaluate_reports_unclosed :
    let opening := Token.synthetic .openParen "("
    let y := Token.synthetic .identifier "y"
    let env : Env := ⟨Scope.empty.declare "x" (Ty.number .i32), .default⟩
    env.scope.Written ∧
      ∃ v, (evaluate env [opening, y]).run .empty = .ok (v, ⟨#[⟨.unknownName "y", .null⟩]⟩) ∧
        v.isFailed ∧ v = .failed := by
  intro opening y env
  have hscope : env.scope.Written := Scope.all_empty.insert "x" (by decide)
  have hrun : ((evaluate env [opening, y]).run .empty).toOption.map
      (fun r => (r.1.isFailed, r.2)) = some (true, ⟨#[⟨.unknownName "y", .null⟩]⟩) := by
    decide +kernel
  cases h : (evaluate env [opening, y]).run .empty with
  | error f =>
    rw [h] at hrun
    cases hrun
  | ok r =>
    rw [h] at hrun
    obtain ⟨v, ds⟩ := r
    obtain ⟨hfailed, rfl⟩ : v.isFailed = true ∧ ds = ⟨#[⟨.unknownName "y", .null⟩]⟩ := by
      simpa [Except.toOption] using hrun
    obtain ⟨new, -, hnew⟩ := (evaluate_reports env hscope [opening, y]).of_run h
    exact ⟨hscope, v, rfl, hfailed, (hnew hfailed).1⟩

end ExprCheck
