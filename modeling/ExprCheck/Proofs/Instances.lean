/-
ExprCheck.Proofs.Instances — types that arguments are put into again and again.

`instantiate` starts from the form that a type had before any arguments were put in, and
keeps that form as the origin of what it makes of it. A type made from a template so has the
template as the form before, whatever became of it on the way (`Step.restoreOrigin_apply`),
and therefore the last step alone decides what comes out of any number of them
(`Template.run_concat`).

The other side of it is that what happens to an instance between two instantiations is not
part of the form before: a pointer put in front, or a count found for an array, is gone when
arguments are put in again (`instantiate_again`). They stay only where the first arguments
replaced nothing, for then there is no origin to go back to.

Which placeholders an instance has can be told beforehand (`hasGenerics_instantiate_iff`), as
arguments are put in all at once and what is in them is not replaced in its turn.
-/
import ExprCheck.ArraySize
import ExprCheck.Proofs.Parts

namespace ExprCheck.Ty

variable {params : List String} {args : List Ty} {t u : Ty}

/-! ## 1. The form before -/

theorem restoreOrigin_of_none (h : t.origin = none) : t.restoreOrigin = t := by
  rw [restoreOrigin, h, Option.getD_none]

/-- Arguments are put into the form before. -/
theorem instantiate_congr (h : u.restoreOrigin = t.restoreOrigin) :
    u.instantiate params args = t.instantiate params args := by
  rw [instantiate, instantiate, h]

/-- What comes out is the type with the arguments put in, whatever its origin. -/
theorem exists_instantiate_eq (h : t.origin = none) :
    ∃ o, t.instantiate params args = { t.substitute params args with origin := o } := by
  have hform := instantiate_eq_or t params args
  rw [restoreOrigin_of_none h] at hform
  rcases hform with heq | heq
  · refine ⟨(t.substitute params args).origin, ?_⟩
    rw [heq]
    cases t.substitute params args
    rfl
  · exact ⟨some t, heq⟩

/-- Where the arguments change nothing the type stays as it is, and where they do it becomes
the origin of what comes out. -/
theorem instantiate_cases (h : t.origin = none)
    (hg : ¬t.hasGenerics → t.substitute params args = t) :
    (t.substitute params args = t ∧ t.instantiate params args = t) ∨
      (t.substitute params args ≠ t ∧ (t.instantiate params args).origin = some t) := by
  rw [instantiate, restoreOrigin_of_none h]
  by_cases hself : t.substitute params args = t
  · rw [if_neg fun hchanged => hchanged.2 hself]
    exact .inl ⟨hself, hself⟩
  · by_cases hgenerics : t.hasGenerics
    · rw [if_pos ⟨hgenerics, hself⟩]
      exact .inr ⟨hself, rfl⟩
    · exact absurd (hg hgenerics) hself

theorem Template.substitute_of_not_hasGenerics (h : Template t) (hg : ¬t.hasGenerics) :
    t.substitute params args = t := by
  refine h.substitute_eq_self_iff.2 fun name hm => ?_
  exact absurd (hasGenerics_iff.2 ⟨name, hm⟩) hg

theorem Template.instantiate_eq_self_iff (h : Template t) :
    t.instantiate params args = t ↔ t.substitute params args = t := by
  rcases instantiate_cases h.origin_eq_none h.substitute_of_not_hasGenerics with
    ⟨hsubst, hself⟩ | ⟨hsubst, horigin⟩
  · exact iff_of_true hself hsubst
  · refine iff_of_false ?_ hsubst
    intro hself
    rw [hself, h.origin_eq_none] at horigin
    cases horigin

/-- Whatever is put into a template, it is still the form before. -/
theorem Template.restoreOrigin_instantiate (h : Template t) :
    (t.instantiate params args).restoreOrigin = t := by
  rcases instantiate_cases h.origin_eq_none h.substitute_of_not_hasGenerics with
    ⟨-, hself⟩ | ⟨-, horigin⟩
  · rw [hself, restoreOrigin_of_none h.origin_eq_none]
  · rw [restoreOrigin, horigin, Option.getD_some]

/-! ## 2. Runs -/

/-- A step in the life of a type: arguments are put in, or the form before comes back. -/
inductive Step
  | instantiate (params : List String) (args : List Ty)
  | restore

namespace Step

def apply (t : Ty) : Step → Ty
  | .instantiate params args => t.instantiate params args
  | .restore => t.restoreOrigin

/-- What a step makes of all types that have the template as the form before. -/
def ofTemplate (t : Ty) : Step → Ty
  | .instantiate params args => t.instantiate params args
  | .restore => t

theorem apply_eq (h : Template t) (hu : u.restoreOrigin = t) (s : Step) :
    s.apply u = s.ofTemplate t := by
  cases s with
  | instantiate params args =>
    exact instantiate_congr (hu.trans (restoreOrigin_of_none h.origin_eq_none).symm)
  | restore => exact hu

/-- A step keeps the form before. -/
theorem restoreOrigin_apply (h : Template t) (hu : u.restoreOrigin = t) (s : Step) :
    (s.apply u).restoreOrigin = t := by
  rw [apply_eq h hu]
  cases s with
  | instantiate params args => exact h.restoreOrigin_instantiate
  | restore => exact restoreOrigin_of_none h.origin_eq_none

end Step

/-- What becomes of a type, step by step. -/
def run (t : Ty) (steps : List Step) : Ty := steps.foldl Step.apply t

theorem Template.restoreOrigin_run (h : Template t) (steps : List Step) :
    (run t steps).restoreOrigin = t := by
  have hrun : ∀ u : Ty, u.restoreOrigin = t → (run u steps).restoreOrigin = t := by
    induction steps with
    | nil => exact fun u hu => hu
    | cons s steps ih => exact fun u hu => ih _ (s.restoreOrigin_apply h hu)
  exact hrun t (restoreOrigin_of_none h.origin_eq_none)

/-- After any steps, the template is the form before, and the type is what the last step makes
of the template itself. -/
theorem Template.run_concat (h : Template t) (steps : List Step) (last : Step) :
    (run t (steps ++ [last])).restoreOrigin = t ∧
      run t (steps ++ [last]) =
        match last with
        | .instantiate params args => t.instantiate params args
        | .restore => t := by
  refine ⟨h.restoreOrigin_run _, ?_⟩
  have hlast : run t (steps ++ [last]) = last.apply (run t steps) := by simp [run]
  rw [hlast, last.apply_eq h (h.restoreOrigin_run steps)]
  cases last <;> rfl

/-- A map that gets another placeholder, is restored, gets too few arguments, and then two for
one placeholder. -/
theorem run_concat_map :
    let t := mapOf (generic "K") (sliceOf (generic "T"))
    let steps := [.instantiate ["T"] [generic "U"], .restore, .instantiate ["K", "T"] [str]]
    let last := run t (steps ++ [.instantiate ["T", "T"] [number .i32, bool]])
    Template t ∧ last.restoreOrigin = t ∧
      last = t.instantiate ["T", "T"] [number .i32, bool] ∧ last.spelling = "[K:[]i32]" := by
  intro t steps last
  have ht : Template t := .map (.generic "K") (.slice (.generic "T"))
  obtain ⟨horigin, hlast⟩ := ht.run_concat steps (.instantiate ["T", "T"] [number .i32, bool])
  exact ⟨ht, horigin, hlast, by decide +kernel⟩

/-! ## 3. Changes between two instantiations -/

theorem instantiate_of_origin (hu : u.origin = some t) (h : t.origin = none) :
    u.instantiate params args = t.instantiate params args := by
  apply instantiate_congr
  rw [restoreOrigin_of_none h, restoreOrigin, hu, Option.getD_some]

theorem origin_inferSize (t : Ty) (n : Nat) : (t.inferSize n).origin = t.origin := by
  rcases inferSize_eq_or t n with heq | heq
  · rw [heq]
  · rw [heq]
    rfl

theorem spelling_substitute_pointerTo (t : Ty) :
    (t.pointerTo.substitute params args).spelling =
      (t.substitute params args).pointerTo.spelling := by
  by_cases hc : t.category = .generic
  · have hc' : t.pointerTo.category = .generic := hc
    rw [substitute_of_generic hc, substitute_of_generic hc', substitutePlaceholder,
      substitutePlaceholder]
    have hname : t.pointerTo.name = t.name := rfl
    rw [hname]
    cases argument? params args t.name <;> rfl
  · have hc' : t.pointerTo.category ≠ .generic := hc
    rw [substitute_of_not_generic hc, substitute_of_not_generic hc']
    rfl

/-- A pointer in front of a type is in front of what comes out of it. -/
theorem spelling_instantiate_pointerTo (h : t.origin = none) :
    (t.pointerTo.instantiate params args).spelling =
      (t.instantiate params args).pointerTo.spelling := by
  obtain ⟨o, ho⟩ := @exists_instantiate_eq params args t h
  obtain ⟨o', ho'⟩ := @exists_instantiate_eq params args t.pointerTo h
  rw [ho, ho']
  exact spelling_substitute_pointerTo t

theorem spelling_inferSize_withOrigin (t : Ty) (o : Option Ty) (n : Nat) :
    ({ t with origin := o }.inferSize n).spelling = (t.inferSize n).spelling := by
  unfold inferSize
  dsimp only
  split <;> rfl

/-- The array takes its size from its initialiser. -/
def IsAutoSized (t : Ty) : Prop := t.category = .array ∧ t.size = some .auto

theorem inferSize_of_auto (h : t.size = some .auto) (n : Nat) : t.inferSize n = t.withCount n := by
  rw [inferSize, h]

theorem spelling_inferSize_substitute (h : t.IsAutoSized) (n : Nat) :
    ((t.inferSize n).substitute params args).spelling =
      ((t.substitute params args).inferSize n).spelling := by
  obtain ⟨hc, hsize⟩ := h
  have hne : t.category ≠ .generic := by simp [hc]
  have hne' : (t.withCount n).category ≠ .generic := hne
  have hsize' : (t.substitute params args).size = some .auto := by
    rw [substitute_of_not_generic hne]
    exact hsize
  rw [inferSize_of_auto hsize, inferSize_of_auto hsize', substitute_of_not_generic hne',
    substitute_of_not_generic hne]
  simp [withCount, rename, spelling, derivedName?, hc, elementSpelling]

/-- A count found for an array is the count of what comes out of it. -/
theorem spelling_instantiate_inferSize (h : t.origin = none) (hauto : t.IsAutoSized) (n : Nat) :
    ((t.inferSize n).instantiate params args).spelling =
      ((t.instantiate params args).inferSize n).spelling := by
  obtain ⟨o, ho⟩ := @exists_instantiate_eq params args t h
  obtain ⟨o', ho'⟩ := @exists_instantiate_eq params args (t.inferSize n)
    ((origin_inferSize t n).trans h)
  rw [ho, ho', spelling_inferSize_withOrigin]
  exact spelling_inferSize_substitute hauto n

/-- Arguments are put in a second time. If something came of the first time, neither a pointer
nor a count that the instance got is left; if nothing did, both are there. For templates,
something comes of it if and only if a placeholder has an argument. -/
theorem instantiate_again (h : t.origin = none) (hm : ∃ name ∈ params, Mentions name t)
    (a b : List Ty) (n : Nat) :
    let x := t.instantiate params a
    (x ≠ t →
      x.pointerTo.instantiate params b = t.instantiate params b ∧
      (x.inferSize n).instantiate params b = t.instantiate params b) ∧
    (x = t →
      (x.pointerTo.instantiate params b).spelling =
        (t.instantiate params b).pointerTo.spelling ∧
      (t.IsAutoSized → ((x.inferSize n).instantiate params b).spelling =
        ((t.instantiate params b).inferSize n).spelling)) ∧
    (Template t → (x ≠ t ↔ ∃ name, Mentions name t ∧ (argument? params a name).isSome)) := by
  intro x
  have hgenerics : t.hasGenerics := by
    obtain ⟨name, -, hm⟩ := hm
    exact hasGenerics_iff.2 ⟨name, hm⟩
  have hcases := @instantiate_cases params a t h fun hnone => absurd hgenerics hnone
  refine ⟨fun hx => ?changed, fun hx => ?same, fun htemplate => ?when⟩
  case changed =>
    have horigin : x.origin = some t := by
      rcases hcases with ⟨-, hself⟩ | ⟨-, horigin⟩
      · exact absurd hself hx
      · exact horigin
    exact ⟨instantiate_of_origin horigin h,
      instantiate_of_origin ((origin_inferSize x n).trans horigin) h⟩
  case same =>
    rw [hx]
    exact ⟨spelling_instantiate_pointerTo h, fun hauto =>
      spelling_instantiate_inferSize h hauto n⟩
  case when =>
    rw [ne_eq, htemplate.instantiate_eq_self_iff, htemplate.substitute_eq_self_iff]
    simp [Option.isSome_iff_ne_none]

/-- An array of unknown size, first of one type and then of another. -/
theorem instantiate_again_array :
    let t := arrayOf (generic "T") .auto
    let x := t.instantiate ["T"] [number .i32]
    t.origin = none ∧ (∃ name ∈ ["T"], Mentions name t) ∧ x ≠ t ∧
      x.pointerTo.instantiate ["T"] [str] = t.instantiate ["T"] [str] ∧
      (x.inferSize 3).instantiate ["T"] [str] = t.instantiate ["T"] [str] := by
  intro t x
  have hm : ∃ name ∈ ["T"], Mentions name t :=
    ⟨"T", List.mem_singleton_self _, .part (by decide) (List.mem_singleton_self _)
      (.placeholder rfl rfl)⟩
  have hx : x ≠ t := by decide +kernel
  exact ⟨rfl, hm, hx, (instantiate_again rfl hm [number .i32] [str] 3).1 hx⟩

/-- A pointer to an instance and the count of one are lost. The pointer cannot stay, as the
same instance comes of the type of pointers, and there it was never put in front. -/
theorem instantiate_again_loses :
    let t := generic "T"
    let array := arrayOf t .auto
    let i32 := number .i32
    (t.origin = none ∧ Mentions "T" t ∧ i32.isResolved ∧ str.isResolved ∧
      ((t.instantiate ["T"] [i32]).pointerTo.instantiate ["T"] [str]).spelling ≠
        (t.instantiate ["T"] [str]).pointerTo.spelling ∧
      (t.instantiate ["T"] [i32]).pointerTo = t.instantiate ["T"] [i32.pointerTo]) ∧
    array.origin = none ∧ array.IsAutoSized ∧ Mentions "T" array ∧
      (((array.instantiate ["T"] [i32]).inferSize 3).instantiate ["T"] [str]).spelling ≠
        ((array.instantiate ["T"] [str]).inferSize 3).spelling := by
  intro t array i32
  have hm : Mentions "T" t := .placeholder rfl rfl
  have hm' : Mentions "T" array := .part (by decide) (List.mem_singleton_self t) hm
  refine ⟨⟨rfl, hm, rfl, rfl, ?_, ?_⟩, rfl, ⟨rfl, rfl⟩, hm', ?_⟩
  all_goals decide +kernel

/-! ## 4. What is left to be replaced -/

theorem argument?_eq_none_iff {name : String} :
    argument? params args name = none ↔ ∀ i, params.idxOf? name = some i → args.length ≤ i := by
  rw [argument?, Option.bind_eq_none_iff]
  simp only [List.getElem?_eq_none_iff]

theorem argument?_eq_some_iff {name : String} {arg : Ty} :
    argument? params args name = some arg ↔
      ∃ i, params.idxOf? name = some i ∧ args[i]? = some arg := by
  rw [argument?, Option.bind_eq_some_iff]

/-- A placeholder is left in an instance if and only if one is left of a placeholder in the
type: it is none of the parameters, or the first parameter of its name is behind the last
argument, or the argument at that place has placeholders itself. -/
theorem hasGenerics_instantiate_iff (h : t.origin = none) (params : List String)
    (args : List Ty) :
    (t.instantiate params args).hasGenerics ↔
      ∃ name, Mentions name t ∧
        ((∀ i, params.idxOf? name = some i → args.length ≤ i) ∨
          ∃ i arg, params.idxOf? name = some i ∧ args[i]? = some arg ∧ arg.hasGenerics) := by
  obtain ⟨o, ho⟩ := @exists_instantiate_eq params args t h
  have hform : ∀ name, Mentions name (t.instantiate params args) ↔
      Mentions name (t.substitute params args) := by
    intro name
    rw [ho]
    exact mentions_congr rfl rfl rfl
  simp only [hasGenerics_iff, hform, mentions_substitute_iff, argument?_eq_none_iff,
    argument?_eq_some_iff]
  constructor
  · intro hleft
    obtain ⟨name, old, hold, ⟨hnone, -⟩ | ⟨arg, ⟨i, hi, harg⟩, hname⟩⟩ := hleft
    · exact ⟨old, hold, .inl hnone⟩
    · exact ⟨old, hold, .inr ⟨i, arg, hi, harg, name, hname⟩⟩
  · intro hleft
    obtain ⟨old, hold, hnone | ⟨i, arg, hi, harg, name, hname⟩⟩ := hleft
    · exact ⟨old, old, hold, .inl ⟨hnone, rfl⟩⟩
    · exact ⟨name, old, hold, .inr ⟨arg, ⟨i, hi, harg⟩, hname⟩⟩

/-- A function type with two placeholders. The parameters name one of them twice, and the other
one gets a placeholder. -/
theorem hasGenerics_instantiate_func :
    let t := funcOf ⟨"f", [⟨"a", sliceOf (generic "T")⟩], mapOf (generic "K") str, []⟩
    let params := ["T", "K", "T"]
    t.origin = none ∧
      (t.instantiate params [number .i32, generic "T"]).hasGenerics ∧
      ¬(t.instantiate params [number .i32, bool]).hasGenerics := by
  intro t params
  have hresult : Mentions "K" (mapOf (generic "K") str) :=
    .part (by decide) (List.mem_cons_self ..) (.placeholder rfl rfl)
  have ht : Mentions "K" t :=
    .part (by decide) (List.mem_cons_of_mem _ (List.mem_singleton_self _)) hresult
  refine ⟨rfl, (hasGenerics_instantiate_iff rfl params _).2 ⟨"K", ht, ?_⟩, ?_⟩
  · exact .inr ⟨1, generic "T", rfl, rfl, rfl⟩
  · decide +kernel

end ExprCheck.Ty
