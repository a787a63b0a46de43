/-
ExprCheck.Proofs.Written — values and their texts.

A value without a text is taken for none: it counts as failed if its type is `void`, and
it is not checked when it is stored. Only the failed value is like that, as long as every
name in scope stands for a value with a text. `Evaluates.written` is the induction: a node
writes its value with a mark of its own, or after the texts of its parts, or as the
constant that it is.
-/
import ExprCheck.Proofs.Evaluates

namespace ExprCheck

open Check

/-! ## 1. Constants -/

theorem Binary64.shown_ne_empty (x : Binary64) : x.shown ≠ "" := by
  have hform (positional : Bool) (digits : List Char) (exponent : Int) :
      (if positional then positionalForm else scientificForm) digits exponent ≠ [] := by
    cases positional with
    | true =>
      rw [if_pos rfl, positionalForm]
      split <;> simp
    | false =>
      rw [if_neg Bool.false_ne_true]
      unfold scientificForm
      exact List.append_ne_nil_of_right_ne_nil _ (List.cons_ne_nil _ _)
  cases x with
  | finite s n h =>
    unfold shown written
    intro hnone
    rw [String.ofList_eq_empty_iff, List.append_eq_nil_iff] at hnone
    exact hform _ _ _ hnone.2
  | infinite s => cases s <;> decide
  | nan => decide

theorem Constant.shown_ne_empty : ∀ c : Constant, c.shown ≠ ""
  | .bool b => by cases b <;> decide
  | .str s => by simp [shown, Text.quote]
  | .signed n => by
    rw [shown, Int.toString_eq_repr]
    cases n.toInt with
    | ofNat m => simp [Int.repr]
    | negSucc m => simp [Int.repr]
  | .unsigned n => by simp [shown]
  | .float x => x.shown_ne_empty

/-! ## 2. Nodes -/

/-- The value has a text, unless it is the failed one. -/
def Value.Written (v : Value) : Prop := v.text = "" → v = .failed

namespace Value

theorem written_failed : Written .failed := fun _ => rfl

theorem Written.of_text {v : Value} (h : v.text ≠ "") : v.Written := fun hnone => absurd hnone h

/-- A value that has not failed has a text. -/
theorem Written.text_ne {v : Value} (h : v.Written) (hf : v.isFailed = false) : v.text ≠ "" := by
  rintro hnone
  rw [h hnone] at hf
  cases hf

theorem ofNumber?_text {literal : String} {v : Value} (h : ofNumber? literal = some v) :
    v.text ≠ "" := by
  have hread : readNumber? "".toList = none := by decide
  simp only [ofNumber?, Option.bind_eq_bind, Option.bind_eq_some_iff, Option.pure_def,
    Option.some.injEq] at h
  obtain ⟨c, hc, kind, -, rfl⟩ := h
  rintro hnone
  rw [show literal = "" from hnone, hread] at hc
  cases hc

theorem number_written (t : Token) : Meets (number t) (fun v _ => v.Written) False := by
  unfold number
  split
  · rename_i v hv
    exact meets_pure (.of_text (ofNumber?_text hv))
  · exact meets_report_pure written_failed

theorem written_ofLiteral (t : Token) : (ofLiteral t).Written := by
  refine .of_text ?_
  unfold ofLiteral
  split
  · exact Constant.shown_ne_empty (.str t.value)
  · decide
  · decide
  · decide

theorem prefixed_written (env : Env) (operator : Token) {operand : Value}
    (h : operand.text ≠ "") :
    Meets (Value.prefixed env operator operand) (fun v _ => v.Written) False := by
  unfold Value.prefixed
  split
  · exact meets_pure (.of_text h)
  · dsimp only
    split
    · exact meets_report_pure written_failed
    · exact meets_pure (.of_text (by simp [typed, h]))

theorem call_written {callee : Value} (opening : Token) (args : List Incoming)
    (h : callee.isFailed = false) :
    Meets (Value.call callee opening args) (fun v _ => v.Written) False := by
  refine (call_typed opening args h).mono (fun v _ hv => ?_) id
  obtain ⟨rfl, -⟩ | ⟨type, inner, rfl⟩ := hv
  · exact written_failed
  · exact .of_text (by simp [typed])

end Value

theorem Operation.written_finish (o : Operation) (settings : Settings) (outcome : Outcome) :
    (o.finish settings outcome).Written := by
  refine .of_text ?_
  unfold finish
  generalize (if settings.foldConstants then outcome.const else none) = const
  cases const with
  | some c => exact c.shown_ne_empty
  | none => simp [Value.typed]

theorem resolve_written (settings : Settings) (left : Value) (token : Token) (right : Value) :
    Meets (resolve settings left token right) (fun v _ => v.Written) True := by
  refine (resolve_finished settings left token right).mono (fun v _ hv => ?_) id
  obtain rfl | ⟨o, outcome, rfl⟩ := hv
  · exact Value.written_failed
  · exact o.written_finish settings outcome

/-! ## 3. Expressions -/

/-- Every name stands for a value with a text. -/
def Scope.Written (s : Scope) : Prop := s.All fun v => v.text ≠ ""

theorem Scope.Written.noneFailed {s : Scope} (h : s.Written) : s.NoneFailed := by
  intro name v hv
  simp [Value.isFailed, h name v hv]

section

variable {env : Env}

/-- Where every name stands for a value with a text, so does every expression that does
not fail. -/
theorem Evaluates.written (hs : env.scope.Written) {e : Expr} {v : Value}
    {new : List Diagnostic} : Evaluates env e v new → v.Written
  | .number h => (Value.number_written _).of_runs h
  | .literal => Value.written_ofLiteral _
  | .name h => by
    rcases (Value.name_meets env _).of_runs h with hv | ⟨rfl, -⟩
    · exact .of_text (hs _ _ hv)
    · exact Value.written_failed
  | .groupFailed _ _ | .binaryFailed _ _ _ | .callFailed _ _ _ | .invalid | .trailing _ =>
    Value.written_failed
  | .grouped _ _ => .of_text (by simp)
  | .tuple _ _ _ => .of_text (by simp [Value.tuple, Value.typed])
  | .unclosedGroup _ hv =>
    ((Value.unclosedGroup_meets _ _).of_runs hv).1 ▸ Value.written_failed
  | .prefixFailed h _ => h.written hs
  | .prefixed h hf hv => (Value.prefixed_written env _ ((h.written hs).text_ne hf)).of_runs hv
  | .binary _ _ _ _ hv => (resolve_written env.settings _ _ _).of_runs hv
  | .call _ _ hf hv => (Value.call_written _ _ hf).of_runs hv
  | .unclosedCall _ _ hv => ((Value.unclosedCall_meets _ _).of_runs hv).1 ▸ Value.written_failed

/-- An expression of which nothing is reported does not fail. -/
theorem Evaluates.text_ne (hs : env.scope.Written) {e : Expr} {v : Value}
    (h : Evaluates env e v []) : v.text ≠ "" := by
  cases hf : v.isFailed with
  | false => exact (h.written hs).text_ne hf
  | true => exact absurd rfl (h.reported hs.noneFailed hf).2

end

end ExprCheck
