/-
ExprCheck.Proofs.Alike — what the rules read of a value.

No rule reads the text of a value, but for whether there is one. So two values that differ
in texts only are taken alike by everything that is done with them: what comes out differs
in texts only, and the same problems are reported (`Check.Matches Value.Alike`). There is
one lemma for each node of an expression; for the operators it says that an operation reads
the types and constants of its operands and nothing else (`Operation.outcome_bare`).
-/
import ExprCheck.Proofs.Evaluates

namespace ExprCheck

open Check

/-! ## 1. Values without their texts -/

namespace Value

mutual

/-- The value without texts, its own and those of the values that it was built from. -/
def core : Value → Value
  | ⟨type, const, isPlace, _, components⟩ => ⟨type, const, isPlace, "", cores components⟩
termination_by structural v => v

def cores : List Value → List Value
  | [] => []
  | v :: vs => core v :: cores vs
termination_by structural vs => vs

end

@[simp] theorem core_type (v : Value) : v.core.type = v.type := by cases v; rfl
@[simp] theorem core_const (v : Value) : v.core.const = v.const := by cases v; rfl

theorem core_text (v : Value) (text : String) : core { v with text := text } = v.core := by
  cases v
  rfl

theorem cores_eq_map (vs : List Value) : cores vs = vs.map core := by
  induction vs with
  | nil => rfl
  | cons v vs ih => rw [cores, List.map_cons, ih]

/-- The values differ in their texts only, and either both have one or neither has. -/
structure Alike (v w : Value) : Prop where
  core : v.core = w.core
  text : v.text = "" ↔ w.text = ""

theorem Alike.refl (v : Value) : v.Alike v := ⟨rfl, Iff.rfl⟩

/-- Another text makes no other value. -/
theorem alike_text {v : Value} {text : String} (h : v.text = "" ↔ text = "") :
    v.Alike { v with text := text } := by
  cases v
  exact ⟨rfl, h⟩

/-- Values of the same parts, but for their texts. -/
theorem alike_mk {type : Ty} {const : Option Constant} {isPlace : Bool}
    {components components' : List Value} {text text' : String}
    (htext : text = "" ↔ text' = "") (hcomponents : cores components = cores components') :
    Alike ⟨type, const, isPlace, text, components⟩ ⟨type, const, isPlace, text', components'⟩ :=
  ⟨by rw [Value.core, Value.core, hcomponents], htext⟩

namespace Alike

variable {v w : Value}

theorem type (h : v.Alike w) : v.type = w.type := by
  simpa using congrArg Value.type h.core

theorem const (h : v.Alike w) : v.const = w.const := by
  simpa using congrArg Value.const h.core

theorem isFailed (h : v.Alike w) : v.isFailed = w.isFailed := by
  rw [Bool.eq_iff_iff]
  simp [Value.isFailed, h.type, h.text]

theorem known? (h : v.Alike w) : v.known? = w.known? := by
  rw [Value.known?, h.type, h.const, Value.known?]

theorem signature? (h : v.Alike w) : v.signature? = w.signature? := by
  rw [Value.signature?, h.type, Value.signature?]

end Alike

end Value

/-- Values on their way, at whatever places: the values are alike, and of both or of
neither something was reported. -/
structure Incoming.Alike (a b : Incoming) : Prop where
  value : a.value.Alike b.value
  reported : a.reported = b.reported

open Value (Alike)

/-! ## 2. Operators -/

namespace Operation

/-- The operation with what it reads of its operands. -/
def bare (o : Operation) : Operation where
  left := ⟨o.left.type, o.left.const, false, "", []⟩
  op := o.op
  token := o.token
  right := ⟨o.right.type, o.right.const, false, "", []⟩

@[simp] theorem bare_left_type (o : Operation) : o.bare.left.type = o.left.type := rfl
@[simp] theorem bare_right_type (o : Operation) : o.bare.right.type = o.right.type := rfl

theorem onPointer_bare (o : Operation) : o.bare.onPointer = o.onPointer := by
  have hpointer (a b : Value) (c : Bool) :
      (if c then a else b).type = if c then a.type else b.type := by cases c <;> rfl
  unfold onPointer
  simp only [hpointer]
  rfl

theorem onSort_bare (o : Operation) (sort : OperandSort) : o.bare.onSort sort = o.onSort sort := by
  cases sort with
  | pointer => exact o.onPointer_bare
  | func | array | slice | struct | trait | map | enum | nil | any | bool | str | float
  | unsigned | signed => rfl

/-- An operation on an enum is one on what the enum is stored in. -/
theorem outcome_enum {o : Operation}
    (h : OperandSort.of? o.left.type o.right.type = some .enum) :
    o.outcome =
      match o.left.type.storage?, o.right.type.storage? with
      | none, none => o.onSort .enum
      | some left, none => outcome { o with left := o.left.retyped left }
      | none, some right => outcome { o with right := o.right.retyped right }
      | some left, some right =>
        outcome { o with left := o.left.retyped left, right := o.right.retyped right } := by
  rw [outcome, h]
  dsimp only
  split <;> simp only [*]

/-- What comes out of an operation depends on the types and constants of its operands. -/
theorem outcome_bare (o : Operation) : o.bare.outcome = o.outcome := by
  fun_induction outcome o with
  | case1 o h =>
    rw [outcome, bare_left_type, bare_right_type, h]
    rfl
  | case2 o h hl hr =>
    rw [@outcome_enum o.bare h, bare_left_type, bare_right_type, hl, hr]
    exact o.onSort_bare .enum
  | case3 o h left hl hr ih | case4 o h right hl hr ih | case5 o h left right hl hr ih =>
    -- an opened operand is as bare as before
    rw [@outcome_enum o.bare h, bare_left_type, bare_right_type, hl, hr]
    exact ih
  | case6 o sort hne h =>
    rw [outcome, bare_left_type, bare_right_type, h]
    cases sort with
    | enum => exact absurd rfl hne
    | _ => exact o.onSort_bare _

theorem logical_bare (o : Operation) (op : Logical) : o.bare.logical op = o.logical op := rfl

theorem outcome_matches {o o' : Operation} (h : o.bare = o'.bare) :
    Matches Eq o.outcome o'.outcome := by
  rw [← o.outcome_bare, ← o'.outcome_bare, h]
  exact o'.bare.outcome_meets.anyhow.matches_self Eq.refl

theorem logical_matches {o o' : Operation} (h : o.bare = o'.bare) (op : Logical) :
    Matches Eq (o.logical op) (o'.logical op) := by
  have hruns : RunsUnless (o'.bare.logical op) True :=
    (o'.bare.logical_meets op).mono (fun _ _ _ => trivial) id
  rw [← o.logical_bare, ← o'.logical_bare, h]
  exact hruns.matches_self Eq.refl

/-- The same outcome is written with a text, or as the same constant. -/
theorem finish_alike (o o' : Operation) (settings : Settings) (outcome : Outcome) :
    (o.finish settings outcome).Alike (o'.finish settings outcome) := by
  unfold Operation.finish
  generalize (if settings.foldConstants then outcome.const else none) = const
  cases const with
  | some c => exact .refl _
  | none => exact Value.alike_mk (by simp [Value.typed]) rfl

end Operation

theorem resolve_alike (settings : Settings) (token : Token) {l l' r r' : Value}
    (hl : l.Alike l') (hr : r.Alike r') :
    Matches Alike (resolve settings l token r) (resolve settings l' token r') := by
  unfold resolve
  cases Operator.ofKind? token.kind with
  | none => exact (matches_report _ _ _).bind fun _ _ _ => matches_pure (.refl _)
  | some op =>
    have hbare : Operation.bare ⟨l, op, token, r⟩ = Operation.bare ⟨l', op, token, r'⟩ := by
      simp only [Operation.bare, hl.type, hl.const, hr.type, hr.const]
    dsimp only
    split
    · refine (Operation.logical_matches hbare _).bind ?_
      rintro outcome _ rfl
      exact matches_pure (Operation.finish_alike _ _ settings outcome)
    · refine (Operation.outcome_matches hbare).bind ?_
      rintro outcome _ rfl
      cases outcome with
      | none => exact matches_pure (.refl _)
      | some outcome => exact matches_pure (Operation.finish_alike _ _ settings outcome)

/-! ## 3. Nodes -/

/-- The same settings go with both values. -/
theorem Value.prefixed_alike {env env' : Env} (hsettings : env.settings = env'.settings)
    (operator : Token) {v w : Value} (h : v.Alike w) :
    Matches Alike (Value.prefixed env operator v) (Value.prefixed env' operator w) := by
  have hconst (c : Option Constant) :
      prefixedConst? operator.kind v c = prefixedConst? operator.kind w c := by
    simp only [prefixedConst?, h.type]
  unfold Value.prefixed
  rw [h.isFailed]
  split
  · exact matches_pure h
  dsimp only
  rw [hsettings, h.known?, hconst, h.type]
  split
  · exact (matches_report _ _ _).bind fun _ _ _ => matches_pure (.refl _)
  · exact matches_pure (alike_mk (by simp [typed, h.text]) rfl)

theorem Value.binary_alike {env env' : Env} (hsettings : env.settings = env'.settings)
    (operator : Token) {l l' r r' : Value} (hl : l.Alike l') (hr : r.Alike r') :
    Matches Alike (Value.binary env l operator r) (Value.binary env' l' operator r') := by
  unfold Value.binary
  rw [hl.isFailed, hr.isFailed, hsettings]
  split
  · exact matches_pure (.refl _)
  · exact resolve_alike _ operator hl hr

theorem assignProblem?_alike (ignoreAny : Bool) (target : Ty) {v w : Value} (h : v.Alike w) :
    assignProblem? ignoreAny target v = assignProblem? ignoreAny target w := by
  simp only [assignProblem?, rangeVerdict?, h.type, h.known?]

theorem checkAssign_alike (ignoreAny : Bool) (target : Ty) {a b : Incoming} (h : a.Alike b) :
    Matches (fun _ _ => True) (checkAssign ignoreAny target a) (checkAssign ignoreAny target b) := by
  have hempty : a.value.text.isEmpty = b.value.text.isEmpty := by
    rw [Bool.eq_iff_iff]
    simp [h.value.text]
  unfold checkAssign
  rw [h.reported, hempty, assignProblem?_alike ignoreAny target h.value]
  split
  · exact matches_pure trivial
  split
  · exact matches_report _ _ _
  · exact matches_pure trivial

theorem checkAssignEach_alike (targets : List Ty) {as bs : List Incoming}
    (h : List.Forall₂ Incoming.Alike as bs) :
    Matches (fun _ _ => True) (checkAssignEach targets as) (checkAssignEach targets bs) := by
  induction targets generalizing as bs with
  | nil => exact matches_pure trivial
  | cons target targets ih =>
    cases h with
    | nil => exact matches_pure trivial
    | cons ha has => exact (checkAssign_alike false target ha).bind fun _ _ _ => ih has

theorem Value.call_alike {f g : Value} (h : f.Alike g) (opening : Token) {as bs : List Incoming}
    (has : List.Forall₂ Incoming.Alike as bs) :
    Matches Alike (Value.call f opening as) (Value.call g opening bs) := by
  have hfailed := h.isFailed
  have hsignature := h.signature?
  cases hf : f.isFailed with
  | true =>
    rw [hf] at hfailed
    simp only [Value.call, hf, ← hfailed, if_true]
    exact matches_pure (.refl _)
  | false =>
    rw [hf] at hfailed
    cases hs : f.signature? with
    | none =>
      rw [hs] at hsignature
      simp only [Value.call, hf, ← hfailed, hs, ← hsignature, Bool.false_eq_true, if_false]
      exact (matches_report _ _ _).bind fun _ _ _ => matches_pure (.refl _)
    | some signature =>
      rw [hs] at hsignature
      rw [call_eq hf hs, call_eq hfailed.symm hsignature.symm, has.length_eq]
      refine ((checkCount_runs _ _ _).anyhow.matches_self Eq.refl).bind fun _ _ _ =>
        (checkAssignEach_alike _ has).bind fun _ _ _ => matches_pure (alike_mk (by simp) rfl)

theorem Value.invalid_alike (stop : Stop) : Matches Alike (invalid stop) (invalid stop) :=
  (invalid_meets stop).anyhow.matches_self Alike.refl

/-- Related lists are mapped to the same list by what does not tell related items apart. -/
theorem map_eq_of_forall₂ {α β γ : Type} {R : α → β → Prop} {f : α → γ} {g : β → γ}
    (hfg : ∀ a b, R a b → f a = g b) {as : List α} {bs : List β} (h : List.Forall₂ R as bs) :
    as.map f = bs.map g := by
  induction h with
  | nil => rfl
  | cons ha _ ih => rw [List.map_cons, List.map_cons, hfg _ _ ha, ih]

theorem Value.any_isFailed_alike {vs ws : List Value} (h : List.Forall₂ Alike vs ws) :
    vs.any isFailed = ws.any isFailed := by
  have hmap := congrArg (List.any · id) (map_eq_of_forall₂ (fun _ _ hv => Alike.isFailed hv) h)
  simpa only [List.any_map, Function.id_comp] using hmap

/-- Brackets around alike values make alike values. -/
theorem Value.group_alike {vs ws : List Value} (h : List.Forall₂ Alike vs ws) :
    (Value.group vs).Alike (Value.group ws) := by
  have htuple (text text' : String) (htext : text = "" ↔ text' = "") :
      (tuple vs text).Alike (tuple ws text') := by
    have htypes := map_eq_of_forall₂ (fun _ _ hv => Alike.type hv) h
    have hcores := map_eq_of_forall₂ (fun _ _ hv => Alike.core hv) h
    unfold tuple
    rw [htypes]
    exact alike_mk htext (by rw [cores_eq_map, cores_eq_map, hcores])
  unfold Value.group
  rw [any_isFailed_alike h]
  split
  · exact .refl _
  match h with
  | .nil => exact .refl _
  | .cons hv .nil => exact ⟨by simpa only [core_text] using hv.core, by simp⟩
  | .cons _ (.cons _ _) => exact htuple _ _ (by simp)

theorem Value.unclosedGroup_alike {vs ws : List Value} (h : List.Forall₂ Alike vs ws)
    (stop : Stop) : Matches Alike (unclosedGroup vs stop) (unclosedGroup ws stop) := by
  unfold unclosedGroup
  rw [any_isFailed_alike h]
  split
  · exact matches_pure (.refl _)
  · exact invalid_alike stop

theorem Value.unclosedCall_alike {as bs : List Incoming} (h : List.Forall₂ Incoming.Alike as bs)
    (stop : Stop) : Matches Alike (unclosedCall as stop) (unclosedCall bs stop) := by
  have hlast : as.getLast?.any (·.reported) = bs.getLast?.any (·.reported) := by
    have hmap := congrArg (fun flags : List Bool => flags.getLast?.any id)
      (map_eq_of_forall₂ (fun _ _ ha => Incoming.Alike.reported ha) h)
    simpa only [List.getLast?_map, Option.any_map, id_eq] using hmap
  unfold unclosedCall
  rw [hlast]
  split
  · exact matches_pure (.refl _)
  · exact invalid_alike stop

end ExprCheck
