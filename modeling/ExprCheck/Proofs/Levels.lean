/-
ExprCheck.Proofs.Levels — names at every level of a type.

A type has levels: the type itself, the types that it is made of, and the form that it had
before arguments were put in, with all the levels of these (`Level`). The name at one level is
made of the names of the parts below, so a name that is behind its parts anywhere would show in
every type around it, and types are compared by their names.

What a step in the life of a type does to the name of the type itself is said in
`ExprCheck.Proofs.Reachable`. Here the same is said of all its levels at once
(`Reachable.throughout`). Most steps change the topmost level and leave the others alone. Only
putting arguments in goes through all of them, and that is an induction over parts
(`Throughout.substitute`). It does not go into the forms before, which are as good as they were.

Naming a type anew changes nothing if the type has no parts to be named after, so that names
are right would also hold of a tuple that has lost its components. `Named` therefore says too
that the parts are there.
-/
import ExprCheck.Proofs.Reachable

namespace ExprCheck

/-- The categories of types that are named after their parts. -/
def Category.isComposite : Category → Bool
  | .slice | .array | .map | .struct | .func | .tuple => true
  | _ => false

namespace Ty

variable {P : Ty → Prop} {params : List String} {args : List Ty} {t u o : Ty}

/-! ## 1. Levels -/

/-- The second type is at some level of the first. -/
inductive Level : Ty → Ty → Prop
  | self (t : Ty) : Level t t
  | part {t part u : Ty} (hp : part ∈ t.parts) (h : Level part u) : Level t u
  | origin {t o u : Ty} (ho : t.origin = some o) (h : Level o u) : Level t u

/-- What is said of types holds at every level of one. -/
def Throughout (P : Ty → Prop) (t : Ty) : Prop := ∀ u, Level t u → P u

theorem throughout_iff :
    Throughout P t ↔
      P t ∧ (∀ part ∈ t.parts, Throughout P part) ∧
        ∀ o, t.origin = some o → Throughout P o := by
  constructor
  · intro h
    refine ⟨h t (.self t), ?_, ?_⟩
    · intro part hp u hu
      exact h u (.part hp hu)
    · intro o ho u hu
      exact h u (.origin ho hu)
  · intro h u hu
    obtain ⟨own, parts, origin⟩ := h
    cases hu with
    | self => exact own
    | part hp hu => exact parts _ hp u hu
    | origin ho hu => exact origin _ ho u hu

namespace Throughout

theorem own (h : Throughout P t) : P t := h t (.self t)

theorem part (h : Throughout P t) (hu : u ∈ t.parts) : Throughout P u :=
  (throughout_iff.1 h).2.1 u hu

theorem origin (h : Throughout P t) (ho : t.origin = some o) : Throughout P o :=
  (throughout_iff.1 h).2.2 o ho

/-- A type that was put together just now has the levels of its parts and its own. -/
theorem of_parts (own : P t) (parts : ∀ u ∈ t.parts, Throughout P u) (ho : t.origin = none) :
    Throughout P t :=
  throughout_iff.2 ⟨own, parts, fun o h => by simp [ho] at h⟩

/-- Where only the topmost level changes, all the others are as they were. -/
theorem at_top (h : Throughout P t) (own : P u) (hparts : u.parts = t.parts)
    (horigin : u.origin = t.origin) : Throughout P u :=
  throughout_iff.2 ⟨own, fun _ hp => h.part (hparts ▸ hp), fun _ ho => h.origin (horigin ▸ ho)⟩

theorem restoreOrigin (h : Throughout P t) : Throughout P t.restoreOrigin := by
  unfold Ty.restoreOrigin
  cases ho : t.origin with
  | none => exact h
  | some o => exact h.origin ho

end Throughout

/-! ## 2. Names -/

/-- The name is made of the parts, and where the category asks for parts they are there. -/
structure Named (t : Ty) : Prop where
  coherent : Coherent t
  derived : t.category.isComposite → t.derivedName?.isSome

/-- Naming the type anew gives the name that it has. -/
theorem Named.name (h : t.Named) :
    t.rename = t ∧ (t.category.isComposite → t.derivedName? = some t.name) := by
  have hrename : t.rename = t := h.coherent.own.rename
  exact ⟨hrename, fun hc => derivedName?_of_rename hrename (h.derived hc)⟩

namespace Throughout

theorem withOrigin (h : Throughout Named t) (ho : Throughout Named o) :
    Throughout Named { t with origin := some o } := by
  have own : Named { t with origin := some o } :=
    ⟨.withOrigin h.own.coherent.own ho.own.coherent, h.own.derived⟩
  refine throughout_iff.2 ⟨own, fun _ hp => h.part hp, ?_⟩
  rintro _ ⟨⟩
  exact ho

theorem addPointers (h : Throughout Named t) (count : Nat) :
    Throughout Named (t.addPointers count) :=
  h.at_top ⟨h.own.coherent.addPointers count, h.own.derived⟩ rfl rfl

theorem withCount (h : Throughout Named t) (count : Nat) :
    Throughout Named (t.withCount count) := by
  have own : Named (t.withCount count) :=
    ⟨h.own.coherent.withCount count,
      fun hc => isSome_derivedName?_withCount (h.own.derived hc) count⟩
  exact h.at_top own rfl rfl

/-- A placeholder is at the bottom, and what is put for it has all its levels with it. Above
it the parts are replaced one by one, and the forms before stay. -/
theorem substitute (h : Throughout Named t) (ha : ∀ a ∈ args, Throughout Named a) :
    Throughout Named (t.substitute params args) := by
  induction t using induction_on_parts with
  | h t ih =>
    by_cases hc : t.category = .generic
    · rw [substitute_of_generic hc, substitutePlaceholder]
      split
      · rename_i arg harg
        exact ((ha arg (mem_of_argument? harg)).addPointers t.pointers).withOrigin h
      · exact h
    · have hform := @substitute_of_not_generic params args t hc
      have own : Named (t.substitute params args) := by
        refine ⟨h.own.coherent.substitute fun a hmem => (ha a hmem).own.coherent, ?_⟩
        intro hcomposite
        rw [category_substitute hc] at hcomposite
        rw [hform]
        exact isSome_derivedName?_substitutePayload _ (h.own.derived hcomposite)
      refine throughout_iff.2 ⟨own, ?parts, ?origin⟩
      case parts =>
        intro part hp
        rw [parts_substitute hc] at hp
        obtain ⟨old, hold, rfl⟩ := List.mem_map.1 hp
        exact ih old hold (h.part hold)
      case origin =>
        intro o ho
        rw [hform] at ho
        exact h.origin ho

theorem instantiate (h : Throughout Named t) (ha : ∀ a ∈ args, Throughout Named a) :
    Throughout Named (t.instantiate params args) := by
  have hsubst : Throughout Named (t.restoreOrigin.substitute params args) :=
    h.restoreOrigin.substitute ha
  rcases instantiate_eq_or t params args with heq | heq
  · rw [heq]
    exact hsubst
  · rw [heq]
    exact hsubst.withOrigin h.restoreOrigin

theorem inferSize (h : Throughout Named t) (count : Nat) :
    Throughout Named (t.inferSize count) := by
  rcases inferSize_eq_or t count with heq | heq
  · rw [heq]
    exact h
  · rw [heq]
    exact h.withCount count

theorem resolveSize (h : Throughout Named t) {env : Env} {ds ds' : Diagnostics}
    (hrun : (t.resolveSize env).run ds = .ok (u, ds')) : Throughout Named u := by
  obtain ⟨-, -, rfl | ⟨count, rfl⟩⟩ := (resolveSize_meets env t).of_run hrun
  · exact h
  · exact h.withCount count

end Throughout

/-! ## 3. Types that come up -/

/-- A type without parts, put together just now. -/
theorem throughout_of_simple (h : Coherent t) (hc : t.category.isComposite = false)
    (hparts : t.parts = []) (ho : t.origin = none) : Throughout Named t := by
  refine .of_parts ⟨h, fun hcomposite => ?_⟩ (fun u hu => ?_) ho
  · rw [hc] at hcomposite
    cases hcomposite
  · rw [hparts] at hu
    cases hu

theorem Reachable.throughout (h : Reachable t) : Throughout Named t := by
  induction h with
  | number | bool | str | nil | any | void | generic | trait | enum =>
    exact throughout_of_simple (.of_own (namedByParts_of_unmarked rfl rfl) rfl) rfl rfl rfl
  | slice h ih =>
    exact .of_parts ⟨(Reachable.slice h).coherent, fun _ => rfl⟩ (by simpa using ih) rfl
  | array h size ih =>
    exact .of_parts ⟨(Reachable.array h size).coherent, fun _ => rfl⟩ (by simpa using ih) rfl
  | map hk hv ihk ihv =>
    exact .of_parts ⟨(Reachable.map hk hv).coherent, fun _ => rfl⟩ (by simp [ihk, ihv]) rfl
  | tuple h ih => exact .of_parts ⟨(Reachable.tuple h).coherent, fun _ => rfl⟩ ih rfl
  | struct decl h ih =>
    exact .of_parts ⟨(Reachable.struct decl h).coherent, fun _ => rfl⟩ ih rfl
  | func hp hr ihp ihr =>
    refine .of_parts ⟨(Reachable.func hp hr).coherent, fun _ => rfl⟩ ?_ rfl
    rw [parts_funcOf, List.forall_mem_append]
    exact ⟨List.forall_mem_map.2 ihp, List.forall_mem_singleton.2 ihr⟩
  | pointers _ count ih => exact ih.addPointers count
  | instantiate _ _ _ ih iha => exact ih.instantiate iha
  | restoreOrigin _ ih => exact ih.restoreOrigin
  | resolveSize _ hrun ih => exact ih.resolveSize hrun
  | inferSize _ count ih => exact ih.inferSize count

/-- Of the types that come up, those that are read from a spelling among them, each has the name
that its parts give it, and so has every type at any of its levels. -/
theorem names_of_reachable (t : Ty) :
    (∀ s, ofSpelling? s = some t → Reachable t) ∧
    (Reachable t → ∀ u, Level t u →
      u.rename = u ∧ (u.category.isComposite → u.derivedName? = some u.name)) :=
  ⟨fun _ h => reachable_of_ofSpelling? h, fun h u hu => (h.throughout u hu).name⟩

/-- A pointer to a function that takes an array and returns a pointer, with a map that was read
for the placeholder in both: the array, now of maps, and the array that it was. -/
theorem names_of_reachable_func :
    let map := mapOf str (number .i32)
    let array := arrayOf (generic "T") .auto
    let template := funcOf ⟨"f", [⟨"xs", array⟩], (generic "T").pointerTo, []⟩
    let t := (template.instantiate ["T"] [map]).pointerTo
    let maps := array.substitute ["T"] [map]
    ofSpelling? map.spelling = some map ∧ Reachable t ∧
      t.derivedName? = some "([...][str:i32])*[str:i32]" ∧
      Level t maps ∧ maps.rename = maps ∧ maps.derivedName? = some "[...][str:i32]" ∧
      Level t array ∧ array.rename = array ∧ array.derivedName? = some "[...]T" := by
  intro map array template t maps
  have hread : ofSpelling? map.spelling = some map :=
    (Readable.map .str (.number .i32)).read?_spelling
  have hmap : Reachable map := (names_of_reachable map).1 _ hread
  have htemplate : Reachable template := by
    refine .func (fun p hp => ?_) (.pointers (.generic "T") 1)
    obtain rfl := List.mem_singleton.1 hp
    exact .array (.generic "T") .auto
  have ht : Reachable t :=
    .pointers (.instantiate htemplate ["T"] fun a ha => List.mem_singleton.1 ha ▸ hmap) 1
  have horigin : t.origin = some template := by decide +kernel
  have hmaps : Level t maps := .part (by decide +kernel) (.self maps)
  have harray : Level t array := .origin horigin (.part (List.mem_cons_self ..) (.self array))
  have hnames := (names_of_reachable t).2 ht
  obtain ⟨-, hname⟩ := hnames t (.self t)
  obtain ⟨hmapsRename, hmapsName⟩ := hnames maps hmaps
  obtain ⟨harrayRename, harrayName⟩ := hnames array harray
  have hspelled : t.name = "([...][str:i32])*[str:i32]" ∧ maps.name = "[...][str:i32]" := by
    decide +kernel
  refine ⟨hread, ht, hspelled.1 ▸ hname (by decide +kernel), hmaps, hmapsRename,
    hspelled.2 ▸ hmapsName (by decide +kernel), harray, harrayRename, harrayName rfl⟩

end Ty

end ExprCheck
