/-
ExprCheck.Proofs.Returned — the return statements of which nothing is reported.

Of a statement nothing is reported if and only if nothing is at any of its steps
(`silent_bind_iff`), so `checkReturn` is taken apart step by step: no expression is missing
between commas, every expression is evaluated, and the values go with the results of the
function. For a function with several results `Takes` says when they do. A single value
has to be a tuple of just as many components. Several values may not be more than the
results, but they may be fewer: each is checked against the result at its place, and
nothing asks for the results that are left.
-/
import ExprCheck.Proofs.Faultless
import ExprCheck.Proofs.Grammar

namespace ExprCheck

open Check

/-! ## 1. Values and the types they are returned as -/

/-- Nothing is wrong with storing the value in a variable of the type. A value without
text is none, and is stored nowhere. -/
def Value.Fits (v : Value) (target : Ty) : Prop :=
  v.text.isEmpty ∨ assignProblem? false target v = none

instance (v : Value) (target : Ty) : Decidable (v.Fits target) :=
  inferInstanceAs (Decidable (_ ∨ _))

/-- What is wrong with storing the value in a variable of the type, as it is reported at
the position. -/
def Value.misfits (v : Value) (target : Ty) (position : Position) : List Diagnostic :=
  if v.text.isEmpty then [] else (assignProblem? false target v).toList.map (⟨·, position⟩)

theorem Value.misfits_eq_nil {v : Value} {target : Ty} {position : Position} :
    v.misfits target position = [] ↔ v.Fits target := by
  unfold misfits Fits
  cases v.text.isEmpty with
  | true => simp
  | false => simp [Option.toList_eq_nil_iff]

theorem checkAssign_run (target : Ty) (v : Value) (position : Position) :
    Runs (checkAssign false target ⟨v, position, false⟩) () (v.misfits target position) := by
  by_cases htext : v.text = ""
  · have hnone : checkAssign false target ⟨v, position, false⟩ = pure () := by
      simp [checkAssign, htext]
    rw [hnone, Value.misfits, if_pos (String.isEmpty_iff.2 htext)]
    exact runs_pure ()
  · rw [Value.misfits, if_neg (mt String.isEmpty_iff.1 htext)]
    exact Value.checkAssign_reports false target htext position

namespace Return

/-- The values on their way from a statement, of which nothing was reported. -/
def unreported (position : Position) (vs : List Value) : List Incoming :=
  vs.map fun v => ⟨v, position, false⟩

@[simp] theorem length_unreported (position : Position) (vs : List Value) :
    (unreported position vs).length = vs.length :=
  List.length_map ..

theorem map_value_unreported (position : Position) (vs : List Value) :
    (unreported position vs).map (·.value) = vs := by
  simp [unreported, Function.comp_def]

/-- The values fit, each the type at its place, as far as both lists go. -/
def FitEach (types : List Ty) (vs : List Value) : Prop := ∀ p ∈ types.zip vs, p.2.Fits p.1

instance (types : List Ty) (vs : List Value) : Decidable (FitEach types vs) :=
  inferInstanceAs (Decidable (∀ p ∈ types.zip vs, p.2.Fits p.1))

/-- What is wrong with storing the values, each in the type at its place, as far as both
lists go. -/
def misfitsEach (types : List Ty) (vs : List Value) (position : Position) : List Diagnostic :=
  (types.zip vs).flatMap fun p => p.2.misfits p.1 position

theorem misfitsEach_eq_nil {types : List Ty} {vs : List Value} {position : Position} :
    misfitsEach types vs position = [] ↔ FitEach types vs := by
  simp only [misfitsEach, List.flatMap_eq_nil_iff, Value.misfits_eq_nil, FitEach]

theorem checkAssignEach_run (types : List Ty) (vs : List Value) (position : Position) :
    Runs (checkAssignEach types (unreported position vs)) () (misfitsEach types vs position) := by
  induction types generalizing vs with
  | nil => exact runs_pure ()
  | cons target targets ih =>
    cases vs with
    | nil => exact runs_pure ()
    | cons v vs => exact (checkAssign_run target v position).bind (ih vs)

theorem silent_checkAssignEach_iff {position : Position} {types : List Ty} {vs : List Value}
    {u : Unit} : Silent (checkAssignEach types (unreported position vs)) u ↔ FitEach types vs := by
  have hrun := checkAssignEach_run types vs position
  rw [← @misfitsEach_eq_nil types vs position]
  constructor
  · exact fun h => (hrun.unique h).2
  · intro h
    rwa [h] at hrun

/-- Values that a function with these results returns without a report. -/
inductive Takes (types : List Ty) : List Value → Prop
  /-- A single value is a tuple of as many components, and each of them fits. -/
  | tuple {v : Value} {components : List Ty} (htuple : v.type.isTuple)
      (hcomponents : v.type.components? = some components)
      (hlength : components.length = types.length)
      (hfit : FitEach types (componentValues v components)) : Takes types [v]
  /-- Several values, or none, are no more than the results, and each of them fits. -/
  | loose {vs : List Value} (hseveral : vs.length ≠ 1) (hlength : vs.length ≤ types.length)
      (hfit : FitEach types vs) : Takes types vs

theorem takes_one_iff {types : List Ty} {v : Value} : Takes types [v] ↔ ∃ components,
    (if v.type.isTuple then v.type.components? else none) = some components ∧
      components.length = types.length ∧ FitEach types (componentValues v components) := by
  constructor
  · intro h
    cases h with
    | tuple htuple hcomponents hlength hfit =>
      exact ⟨_, by rw [if_pos htuple, hcomponents], hlength, hfit⟩
    | loose hseveral => exact absurd rfl hseveral
  · rintro ⟨components, h, hlength, hfit⟩
    obtain ⟨htuple, hcomponents⟩ := Option.ite_none_right_eq_some.1 h
    exact .tuple htuple hcomponents hlength hfit

theorem takes_several_iff {types : List Ty} {vs : List Value} (hseveral : vs.length ≠ 1) :
    Takes types vs ↔ vs.length ≤ types.length ∧ FitEach types vs := by
  constructor
  · intro h
    cases h with
    | tuple => exact absurd rfl hseveral
    | loose _ hlength hfit => exact ⟨hlength, hfit⟩
  · rintro ⟨hlength, hfit⟩
    exact .loose hseveral hlength hfit

theorem silent_checkTuple_iff {position : Position} {types : List Ty} {v : Value} {u : Unit} :
    Silent (checkTuple position types ⟨v, position, false⟩) u ↔ Takes types [v] := by
  rw [takes_one_iff]
  unfold checkTuple
  rw [if_neg Bool.false_ne_true]
  cases hc : if v.type.isTuple then v.type.components? else none with
  | none => simpa [hc] using not_silent_report
  | some components =>
    simp only [Option.some.injEq, exists_eq_left']
    by_cases hfew : components.length < types.length
    · rw [if_pos hfew]
      exact iff_of_false not_silent_report fun h => absurd h.1 (Nat.ne_of_lt hfew)
    by_cases hmany : types.length < components.length
    · rw [if_neg hfew, if_pos hmany]
      exact iff_of_false not_silent_report fun h => absurd h.1 (Nat.ne_of_gt hmany)
    have hlength : components.length = types.length := by omega
    rw [if_neg hfew, if_neg hmany, and_iff_right hlength]
    exact silent_checkAssignEach_iff

/-- Several values, or none, are checked one by one, and if they are more than the results that
is reported before. -/
theorem checkSeveral_loose {position : Position} {types : List Ty} {returned : List Incoming}
    (hseveral : returned.length ≠ 1) :
    checkSeveral position types returned =
      if types.length < returned.length then
        Check.report .extraReturn position >>= fun _ => checkAssignEach types returned
      else checkAssignEach types returned := by
  unfold checkSeveral
  split
  · exact absurd rfl hseveral
  · rfl

theorem silent_checkSeveral_iff {position : Position} {types : List Ty} {vs : List Value}
    {u : Unit} : Silent (checkSeveral position types (unreported position vs)) u ↔
      Takes types vs := by
  by_cases hone : vs.length = 1
  · obtain ⟨v, rfl⟩ := List.length_eq_one_iff.1 hone
    exact silent_checkTuple_iff
  have hrest := (Value.checkAssignEach_runs types (unreported position vs)).anyhow
  rw [takes_several_iff hone, checkSeveral_loose (by simpa using hone), length_unreported]
  by_cases hmany : types.length < vs.length
  · rw [if_pos hmany]
    exact iff_of_false (not_silent_report_bind hrest) fun h => absurd h.1 (Nat.not_le_of_gt hmany)
  · rw [if_neg hmany, and_iff_right (Nat.le_of_not_gt hmany)]
    exact silent_checkAssignEach_iff

end Return

/-! ## 2. Parts of a statement -/

namespace Token

theorem splitFrom_ne_nil {separator : Kind} {depth : Int} {part ts : List Token}
    (h : (splitFrom separator true depth part ts).missing = []) :
    ∀ p ∈ (splitFrom separator true depth part ts).parts, p ≠ [] := by
  induction ts generalizing depth part with
  | nil =>
    rw [splitFrom]
    cases part with
    | nil => simp
    | cons t part => simp
  | cons t ts ih =>
    rw [splitFrom] at h ⊢
    dsimp only at h ⊢
    split at h
    · rename_i hopening
      rw [if_pos hopening]
      exact ih h
    rename_i hopening
    rw [if_neg hopening]
    generalize (if t.kind.isClosing then depth - 1 else depth) = depth at h ⊢
    split at h
    · rename_i hcut
      rw [if_pos hcut]
      -- a cut behind an empty part would be missing
      cases part with
      | nil => cases h
      | cons t part => simpa [Parts.add] using ih h
    · rename_i hcut
      rw [if_neg hcut]
      exact ih h

/-- Where no part is missing, every part holds something. -/
theorem split_ne_nil {ts : List Token} {separator : Kind}
    (h : (split ts separator true).missing = []) :
    ∀ part ∈ (split ts separator true).parts, part ≠ [] := by
  unfold split at h ⊢
  split at h
  · simp
  · exact splitFrom_ne_nil h

end Token

theorem silent_checkParts_iff {ts : List Token} {separator : Token.Kind} {mustHold : Bool}
    {parts : List (List Token)} : Silent (Token.checkParts ts separator mustHold) parts ↔
      (Token.split ts separator mustHold).missing = [] ∧
        parts = (Token.split ts separator mustHold).parts := by
  unfold Token.checkParts
  dsimp only
  rw [silent_bind_iff (runs_forM (fun _ => meets_report trivial) _) fun _ => meets_pure trivial]
  simp only [silent_forM_report_iff, silent_pure_iff, exists_const]

/-- The statement supplies the values: it lacks no part, and its parts are evaluated to
them without a report. -/
def Return.Supplies (env : Env) (ts : List Token) (vs : List Value) : Prop :=
  (Token.split ts .comma true).missing = [] ∧
    List.Forall₂ (fun part v => Silent (evaluate env part) v) (Token.split ts .comma true).parts vs

/-- Values found in two steps, the second of which is a function. -/
theorem forall₂_exists_eq {α β γ : Type} {R : α → β → Prop} {f : β → γ} {as : List α}
    {cs : List γ} : List.Forall₂ (fun a c => ∃ b, R a b ∧ c = f b) as cs ↔
      ∃ bs, List.Forall₂ R as bs ∧ cs = bs.map f := by
  constructor
  · intro h
    induction h with
    | nil => exact ⟨[], .nil, rfl⟩
    | cons hb _ ih =>
      obtain ⟨b, hb, rfl⟩ := hb
      obtain ⟨bs, hbs, rfl⟩ := ih
      exact ⟨b :: bs, .cons hb hbs, rfl⟩
  · rintro ⟨bs, h, rfl⟩
    exact List.forall₂_map_right_iff.2 (h.imp fun _ b hb => ⟨b, hb, rfl⟩)

namespace Return

variable {env : Env} {position : Position}

/-- What is done with each part of a statement. -/
def evalPart (env : Env) (position : Position) (part : List Token) : Check Incoming := do
  let found ← watch (evaluate env part)
  return ⟨found.1, position, found.2⟩

theorem evalParts_eq (ts : List Token) : evalParts env position ts = (do
    let parts ← Token.checkParts ts .comma true
    (parts.filter (!·.isEmpty)).mapM (evalPart env position)) := rfl

theorem evalPart_runs (part : List Token) : RunsUnless (evalPart env position part) True :=
  (Meets.watch (evaluate_runs env part)).anyhow.bind fun _ _ _ => meets_pure trivial

theorem silent_evalPart_iff {part : List Token} {r : Incoming} :
    Silent (evalPart env position part) r ↔
      ∃ v, Silent (evaluate env part) v ∧ r = ⟨v, position, false⟩ := by
  have hrun := evaluate_runs env part
  rw [evalPart, silent_bind_iff (Meets.watch hrun).anyhow fun _ => meets_pure trivial]
  simp only [silent_pure_iff, silent_watch_iff hrun.anyhow]
  constructor
  · rintro ⟨⟨v, _⟩, ⟨hv, rfl⟩, rfl⟩
    exact ⟨v, hv, rfl⟩
  · rintro ⟨v, hv, rfl⟩
    exact ⟨(v, false), ⟨hv, rfl⟩, rfl⟩

theorem silent_evalParts_iff {ts : List Token} {returned : List Incoming} :
    Silent (evalParts env position ts) returned ↔
      ∃ vs, Supplies env ts vs ∧ returned = unreported position vs := by
  rw [evalParts_eq, silent_bind_iff (checkParts_runs ts .comma true).anyhow fun _ =>
    runs_mapM evalPart_runs _]
  simp only [silent_checkParts_iff, silent_mapM_iff evalPart_runs, silent_evalPart_iff,
    forall₂_exists_eq]
  unfold Supplies
  constructor
  · rintro ⟨_, ⟨hmissing, rfl⟩, vs, hvs, rfl⟩
    rw [List.filter_eq_self.2 (by simpa using Token.split_ne_nil hmissing)] at hvs
    exact ⟨vs, ⟨hmissing, hvs⟩, rfl⟩
  · rintro ⟨vs, ⟨hmissing, hvs⟩, rfl⟩
    refine ⟨_, ⟨hmissing, rfl⟩, vs, ?_, rfl⟩
    rwa [List.filter_eq_self.2 (by simpa using Token.split_ne_nil hmissing)]

end Return

/-! ## 3. Statements -/

theorem Ty.not_isVoid_of_components {t : Ty} {types : List Ty}
    (h : t.components? = some types) : t.isVoid = false := by
  unfold Ty.components? at h
  split at h
  · rename_i hcategory _
    simp [Ty.isVoid, Ty.bareCategory?, hcategory]
  · cases h

open Return in
/-- A statement of a function that returns a tuple is evaluated part by part, and then
the values are checked. -/
theorem checkReturn_several {env : Env} {signature : Signature Ty} {position : Position}
    {types : List Ty} (htypes : signature.result.components? = some types) {ts : List Token}
    (hts : Token.withoutEof ts ≠ []) :
    checkReturn env signature position ts = (do
      let returned ← evalParts env position (Token.withoutEof ts)
      checkSeveral position types returned
      return returned.map (·.value)) := by
  have hvoid := Ty.not_isVoid_of_components htypes
  have hempty : ¬(Token.withoutEof ts).isEmpty := by simpa using hts
  unfold checkReturn
  simp only [if_neg hempty, hvoid, htypes, Bool.false_eq_true, if_false]

open Return in
theorem silent_checkReturn_iff {env : Env} {signature : Signature Ty} {position : Position}
    {types : List Ty} (htypes : signature.result.components? = some types) {ts : List Token}
    (hts : Token.withoutEof ts ≠ []) {vs : List Value} :
    Silent (checkReturn env signature position ts) vs ↔
      Return.Supplies env (Token.withoutEof ts) vs ∧ Takes types vs := by
  have hseveral (returned : List Incoming) :=
    (checkSeveral_runs position types returned).anyhow
  rw [checkReturn_several htypes hts,
    silent_bind_iff (evalParts_runs env position _).anyhow fun returned =>
      (hseveral returned).bind fun _ _ _ => meets_pure trivial]
  simp only [silent_bind_iff (hseveral _) fun _ => meets_pure trivial, silent_pure_iff,
    silent_evalParts_iff]
  constructor
  · rintro ⟨_, ⟨vs, heval, rfl⟩, _, htakes, rfl⟩
    rw [map_value_unreported]
    exact ⟨heval, silent_checkSeveral_iff.1 htakes⟩
  · rintro ⟨heval, htakes⟩
    exact ⟨_, ⟨vs, heval, rfl⟩, (), silent_checkSeveral_iff.2 htakes, (map_value_unreported position vs).symm⟩

/-- A name by itself is evaluated as a name. -/
theorem evaluate_name (env : Env) {t : Token} (ht : t.kind = .identifier) :
    evaluate env [t] = Value.name env t := by
  have htree : Derives .or (Token.withoutEof [t]) (.name t) := by
    have hspan : Token.withoutEof [t] = [t] := by simp [Token.withoutEof, ht]
    rw [hspan]
    exact (Derives.name ht).loosen (by decide)
  rw [htree.evaluate_span, Expr.eval]

theorem silent_evaluate_name {env : Env} {t : Token} (ht : t.kind = .identifier) {v : Value}
    (hv : env.scope.get? t.value = some v) : Silent (evaluate env [t]) v := by
  rw [evaluate_name env ht, Value.name, hv]
  exact runs_pure v

open Return in
/-- A function that returns a tuple takes a statement without a report if and only if every
part of it is evaluated to a value without a report, and the values are a single tuple of
as many components, or are none, or are several and no more than the components, and what
is returned fits each component as far as there is something for it. -/
theorem checkReturn_takes (env : Env) (signature : Signature Ty) (position : Position)
    {types : List Ty} (htypes : signature.result.components? = some types) {ts : List Token}
    (hts : Token.withoutEof ts ≠ []) (vs : List Value) (ds : Diagnostics) :
    (checkReturn env signature position ts).run ds = .ok (vs, ds) ↔
      Return.Supplies env (Token.withoutEof ts) vs ∧ Takes types vs := by
  rw [← silent_iff_run (checkReturn_runs env signature position ts).anyhow]
  exact silent_checkReturn_iff htypes hts

/-- A pair in a variable is returned as it is. -/
theorem checkReturn_takes_pair :
    let types := [Ty.number .i32, Ty.bool]
    let x := Token.synthetic .identifier "x"
    let v := Value.place (Ty.tupleOf types) "x"
    let env : Env := ⟨Scope.empty.declare "x" (Ty.tupleOf types), .default⟩
    let signature : Signature Ty := ⟨"f", [], Ty.tupleOf types, []⟩
    signature.result.components? = some types ∧ Token.withoutEof [x] ≠ [] ∧
      (checkReturn env signature .null [x]).run .empty = .ok ([v], .empty) := by
  intro types x v env signature
  have hts : Token.withoutEof [x] ≠ [] := by decide
  have hx : Silent (evaluate env [x]) v := silent_evaluate_name rfl rfl
  have heval : Return.Supplies env (Token.withoutEof [x]) [v] := ⟨rfl, .cons hx .nil⟩
  have htakes : Return.Takes types [v] := .tuple rfl rfl rfl (by decide)
  exact ⟨rfl, hts, (checkReturn_takes env signature .null rfl hts [v] .empty).2 ⟨heval, htakes⟩⟩

/-- Two values are taken where three are to be returned. -/
theorem checkReturn_takes_too_few :
    let types := [Ty.number .i32, Ty.number .i32, Ty.number .i32]
    let x := Token.synthetic .identifier "x"
    let comma := Token.synthetic .comma ","
    let v := Value.place (Ty.number .i32) "x"
    let env : Env := ⟨Scope.empty.declare "x" (Ty.number .i32), .default⟩
    let signature : Signature Ty := ⟨"f", [], Ty.tupleOf types, []⟩
    (checkReturn env signature .null [x, comma, x]).run .empty = .ok ([v, v], .empty) ∧
      types.length = 3 := by
  intro types x comma v env signature
  have hts : Token.withoutEof [x, comma, x] ≠ [] := by decide
  have hx : Silent (evaluate env [x]) v := silent_evaluate_name rfl rfl
  have heval : Return.Supplies env (Token.withoutEof [x, comma, x]) [v, v] :=
    ⟨rfl, .cons hx (.cons hx .nil)⟩
  have htakes : Return.Takes types [v, v] := .loose (by decide) (by decide) (by decide)
  have hsilent : Silent (checkReturn env signature .null [x, comma, x]) [v, v] :=
    (silent_checkReturn_iff rfl hts).2 ⟨heval, htakes⟩
  exact ⟨hsilent .empty, rfl⟩

end ExprCheck
