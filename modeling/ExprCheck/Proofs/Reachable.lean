/-
ExprCheck.Proofs.Reachable — types as they come up.

A type is put together by the functions of `ExprCheck.Ty.Spelling`, and from then on it gets
pointers, arguments for its placeholders, its form before them back, and a count of its
elements. `Reachable` is what comes up so, after any number of steps. What is read from a
spelling needs no rule of its own, since reading puts types together too
(`reachable_of_ofSpelling?`).

Every step that changes a part names the type anew, so a name is never behind the parts.
`NamedByParts` says that of a type, and `Coherent` also of the forms that it had before,
which `restoreOrigin` brings back. There is one lemma a step, and `Reachable.coherent` is the
induction.
-/
import ExprCheck.ArraySize
import ExprCheck.Proofs.Evaluates
import ExprCheck.Proofs.Parts
import ExprCheck.Proofs.RoundTrip

namespace ExprCheck

/-- The categories that a name shows by its marks: brackets at its ends. -/
def Category.isMarked : Category → Bool
  | .slice | .array | .map | .func => true
  | _ => false

namespace Ty

variable {params : List String} {args : List Ty} {t : Ty}

/-! ## 1. Steps -/

/-- The types that come up. -/
inductive Reachable : Ty → Prop
  | number (kind : NumberKind) : Reachable (number kind)
  | bool : Reachable bool
  | str : Reachable str
  | nil : Reachable nil
  | any : Reachable any
  | void : Reachable void
  | generic (name : String) : Reachable (generic name)
  | slice {element : Ty} (h : Reachable element) : Reachable (sliceOf element)
  | array {element : Ty} (h : Reachable element) (size : ArraySize) :
      Reachable (arrayOf element size)
  | map {key value : Ty} (hk : Reachable key) (hv : Reachable value) : Reachable (mapOf key value)
  | tuple {components : List Ty} (h : ∀ c ∈ components, Reachable c) :
      Reachable (tupleOf components)
  | struct (decl : StructDef Ty) {args : List Ty} (h : ∀ a ∈ args, Reachable a) :
      Reachable (structOf decl args)
  | trait (decl : TraitDef) : Reachable (traitOf decl)
  | enum (decl : EnumDef Ty) : Reachable (enumOf decl)
  | func {signature : Signature Ty} (hp : ∀ p ∈ signature.params, Reachable p.type)
      (hr : Reachable signature.result) : Reachable (funcOf signature)
  | pointers {t : Ty} (h : Reachable t) (count : Nat) : Reachable (t.addPointers count)
  | instantiate {t : Ty} {args : List Ty} (h : Reachable t) (params : List String)
      (ha : ∀ a ∈ args, Reachable a) : Reachable (t.instantiate params args)
  | restoreOrigin {t : Ty} (h : Reachable t) : Reachable t.restoreOrigin
  /-- The size of an array is found, or is reported and stays as it is. -/
  | resolveSize {t t' : Ty} {env : Env} {ds ds' : Diagnostics} (h : Reachable t)
      (hrun : (t.resolveSize env).run ds = .ok (t', ds')) : Reachable t'
  | inferSize {t : Ty} (h : Reachable t) (count : Nat) : Reachable (t.inferSize count)

theorem Readable.reachable (h : Readable t) : Reachable t := by
  induction h with
  | number kind => exact .number kind
  | bool => exact .bool
  | str => exact .str
  | nil => exact .nil
  | any => exact .any
  | void => exact .void
  | slice _ ih => exact .slice ih
  | array _ _ ih => exact .array ih _
  | map _ _ ihk ihv => exact .map ihk ihv
  | tuple _ _ ih => exact .tuple ih
  | pointers _ count ih => exact .pointers ih count

/-- What is read from a spelling comes up without being read. -/
theorem reachable_of_ofSpelling? {s : String} (h : ofSpelling? s = some t) : Reachable t :=
  (readable_of_read? h).reachable

/-! ## 2. Names and parts -/

/-- The name is the one that the parts give it, and where a name shows the category by its
marks, the parts are there that it is made of. -/
structure NamedByParts (t : Ty) : Prop where
  rename : t.rename = t
  derived : t.category.isMarked → t.derivedName?.isSome
  sized : t.category = .array → t.size.isSome

/-- A type that naming anew leaves as it is has the name that its parts give it. -/
theorem derivedName?_of_rename (h : t.rename = t) (hderived : t.derivedName?.isSome) :
    t.derivedName? = some t.name := by
  obtain ⟨name, hname⟩ := Option.isSome_iff_exists.1 hderived
  have hrename := congrArg Ty.name h
  simp only [rename, hname, Option.getD_some] at hrename
  rw [hname, hrename]

theorem NamedByParts.name (h : t.NamedByParts) (hc : t.category.isMarked) :
    t.derivedName? = some t.name :=
  derivedName?_of_rename h.rename (h.derived hc)

/-- A name that was derived from the parts is not changed by deriving it again. -/
theorem rename_rename (t : Ty) : t.rename.rename = t.rename := by
  have hderived : t.rename.derivedName? = t.derivedName? := rfl
  rw [rename, hderived]
  cases h : t.derivedName? <;> simp [rename, h]

theorem namedByParts_rename (derived : t.category.isMarked → t.derivedName?.isSome)
    (sized : t.category = .array → t.size.isSome) : t.rename.NamedByParts :=
  ⟨rename_rename t, derived, sized⟩

theorem namedByParts_of_unmarked (hm : t.category.isMarked = false) (hrename : t.rename = t) :
    t.NamedByParts := by
  refine ⟨hrename, fun h => ?_, fun hc => ?_⟩
  · rw [hm] at h
    cases h
  · rw [hc] at hm
    cases hm

/-! ## 3. Steps and names -/

/-- Arguments leave the parts of a type in their places. -/
theorem isSome_derivedName?_substitutePayload (element : Option Ty)
    (h : t.derivedName?.isSome) :
    ({ t with
        element := element
        payload := substitutePayload params args t.payload } : Ty).derivedName?.isSome := by
  unfold derivedName? at h ⊢
  split at h <;> simp_all [substitutePayload]

/-- A count is in the name, but it does not decide whether there is one. -/
theorem isSome_derivedName?_withCount (h : t.derivedName?.isSome) (count : Nat) :
    (t.withCount count).derivedName?.isSome := by
  unfold derivedName? at h ⊢
  split at h <;> simp_all [withCount, Ty.rename]

theorem mem_of_argument? {name : String} {arg : Ty} (h : argument? params args name = some arg) :
    arg ∈ args := by
  obtain ⟨i, -, hi⟩ := Option.bind_eq_some_iff.1 h
  exact List.mem_of_getElem? hi

/-- A size that is resolved gives the type a count or leaves it as it is. -/
theorem resolveSize_meets (env : Env) (t : Ty) :
    Check.Meets (t.resolveSize env) (fun t' _ => t' = t ∨ ∃ count, t' = t.withCount count)
      True := by
  unfold Ty.resolveSize
  split
  · refine ((evaluate_meets env _).mono (fun _ _ _ => trivial) fun _ => trivial).bind
      fun v _ _ => ?_
    split
    · rename_i count _
      exact Check.meets_pure (.inr ⟨count, rfl⟩)
    · exact Check.meets_report_pure (.inl rfl)
  · exact Check.meets_pure (.inl rfl)

/-- The type and the forms that it had before are named by their parts. -/
inductive Coherent : Ty → Prop
  | intro {t : Ty} (own : t.NamedByParts) (origin : ∀ o, t.origin = some o → Coherent o) :
      Coherent t

namespace Coherent

theorem own (h : Coherent t) : t.NamedByParts := by
  cases h
  assumption

theorem origin (h : Coherent t) {o : Ty} (ho : t.origin = some o) : Coherent o := by
  cases h with
  | intro _ horigin => exact horigin o ho

/-- A type that was put together just now has no form before. -/
theorem of_own (own : t.NamedByParts) (ho : t.origin = none) : Coherent t :=
  .intro own fun o h => by simp [ho] at h

theorem withOrigin (h : t.NamedByParts) {o : Ty} (ho : Coherent o) :
    Coherent { t with origin := some o } := by
  obtain ⟨hrename, hderived, hsized⟩ := h
  refine .intro ⟨congrArg (fun t : Ty => { t with origin := some o }) hrename, hderived, hsized⟩ ?_
  rintro _ ⟨⟩
  exact ho

theorem addPointers (h : Coherent t) (count : Nat) : Coherent (t.addPointers count) := by
  obtain ⟨⟨hrename, hderived, hsized⟩, horigin⟩ := h
  exact .intro ⟨congrArg (Ty.addPointers · count) hrename, hderived, hsized⟩ horigin

theorem withCount (h : Coherent t) (count : Nat) : Coherent (t.withCount count) := by
  refine .intro (namedByParts_rename (fun hc => ?_) fun _ => rfl) fun o ho => h.origin ho
  exact isSome_derivedName?_withCount (h.own.derived hc) count

/-- What is put for a placeholder keeps its name, and all else is named anew. -/
theorem substitute (h : Coherent t) (ha : ∀ a ∈ args, Coherent a) :
    Coherent (t.substitute params args) := by
  by_cases hc : t.category = .generic
  · rw [substitute_of_generic hc, substitutePlaceholder]
    split
    · rename_i arg harg
      exact withOrigin ((ha arg (mem_of_argument? harg)).addPointers t.pointers).own h
    · exact h
  · rw [substitute_of_not_generic hc]
    refine .intro (namedByParts_rename (fun hm => ?_) h.own.sized) fun o ho => h.origin ho
    exact isSome_derivedName?_substitutePayload _ (h.own.derived hm)

theorem restoreOrigin (h : Coherent t) : Coherent t.restoreOrigin := by
  unfold Ty.restoreOrigin
  cases ho : t.origin with
  | none => exact h
  | some o => exact h.origin ho

theorem instantiate (h : Coherent t) (ha : ∀ a ∈ args, Coherent a) :
    Coherent (t.instantiate params args) := by
  have hsubst : Coherent (t.restoreOrigin.substitute params args) := h.restoreOrigin.substitute ha
  rcases instantiate_eq_or t params args with heq | heq
  · rw [heq]
    exact hsubst
  · rw [heq]
    exact withOrigin hsubst.own h.restoreOrigin

theorem inferSize (h : Coherent t) (count : Nat) : Coherent (t.inferSize count) := by
  rcases inferSize_eq_or t count with heq | heq
  · rw [heq]
    exact h
  · rw [heq]
    exact h.withCount count

theorem resolveSize (h : Coherent t) {t' : Ty} {env : Env} {ds ds' : Diagnostics}
    (hrun : (t.resolveSize env).run ds = .ok (t', ds')) : Coherent t' := by
  obtain ⟨-, -, rfl | ⟨count, rfl⟩⟩ := (resolveSize_meets env t).of_run hrun
  · exact h
  · exact h.withCount count

end Coherent

theorem Reachable.coherent (h : Reachable t) : Coherent t := by
  induction h with
  | number | bool | str | nil | any | void | generic | trait | enum =>
    exact .of_own (namedByParts_of_unmarked rfl rfl) rfl
  | tuple | struct => exact .of_own (namedByParts_of_unmarked rfl (rename_rename _)) rfl
  | slice | map | func =>
    exact .of_own (namedByParts_rename (fun _ => rfl) fun h => Category.noConfusion h) rfl
  | array => exact .of_own (namedByParts_rename (fun _ => rfl) fun _ => rfl) rfl
  | pointers _ count ih => exact ih.addPointers count
  | instantiate _ _ _ ih iha => exact ih.instantiate iha
  | restoreOrigin _ ih => exact ih.restoreOrigin
  | resolveSize _ hrun ih => exact ih.resolveSize hrun
  | inferSize _ count ih => exact ih.inferSize count

end Ty

end ExprCheck
