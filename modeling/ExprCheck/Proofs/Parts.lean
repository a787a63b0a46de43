/-
ExprCheck.Proofs.Parts — types, the types in them, and placeholders among these.

The parts of a type are its element and the types in its payload. Looking for placeholders
and putting arguments for them both go through the parts, so what is said of either is said
by an induction over parts: a placeholder is replaced if and only if it is found at the same
place. `Mentions` is being found, and `mentions_substitute_iff` says what is found afterwards.

A template is a type that the functions of `ExprCheck.Ty.Spelling` put together all the way
down. Its name is the one its parts give it, at every level, and it has no origin; that is
why putting arguments in leaves it as it is, unless some placeholder in it has one
(`Template.substitute_eq_self_iff`).
-/
import ExprCheck.Ty.Generic

namespace ExprCheck

/-! ## 1. Parts -/

/-- The types in a payload. Those in the declarations of structs and enums are not among
them. -/
def Payload.types {τ : Type} : Payload τ → List τ
  | .none | .trait _ | .enum _ => []
  | .map key value => [key, value]
  | .struct _ args => args
  | .func signature => signature.params.map (·.type) ++ [signature.result]
  | .tuple components => components

namespace Ty

variable {params : List String} {args : List Ty} {t u : Ty} {name : String}

/-- The types that the type is directly made of. -/
def parts (t : Ty) : List Ty := t.element.toList ++ t.payload.types

@[simp] theorem parts_sliceOf (element : Ty) : (sliceOf element).parts = [element] := rfl

@[simp] theorem parts_arrayOf (element : Ty) (size : ArraySize) :
    (arrayOf element size).parts = [element] := rfl

@[simp] theorem parts_mapOf (key value : Ty) : (mapOf key value).parts = [key, value] := rfl

@[simp] theorem parts_tupleOf (components : List Ty) :
    (tupleOf components).parts = components := rfl

@[simp] theorem parts_structOf (decl : StructDef Ty) (args : List Ty) :
    (structOf decl args).parts = args := rfl

@[simp] theorem parts_funcOf (signature : Signature Ty) :
    (funcOf signature).parts = signature.params.map (·.type) ++ [signature.result] := rfl

theorem sizeOf_payload_lt {p : Payload Ty} (h : u ∈ p.types) : sizeOf u < sizeOf p := by
  cases p with
  | none | trait | enum => simp [Payload.types] at h
  | map key value =>
    simp only [Payload.types, List.mem_cons, List.not_mem_nil, or_false] at h
    rcases h with rfl | rfl <;> (simp only [Payload.map.sizeOf_spec]; omega)
  | struct decl args =>
    have := List.sizeOf_lt_of_mem h
    simp only [Payload.types, Payload.struct.sizeOf_spec] at *
    omega
  | tuple components =>
    have := List.sizeOf_lt_of_mem h
    simp only [Payload.types, Payload.tuple.sizeOf_spec] at *
    omega
  | func signature =>
    obtain ⟨name, params, result, results⟩ := signature
    simp only [Payload.types, List.mem_append, List.mem_map, List.mem_singleton] at h
    simp only [Payload.func.sizeOf_spec, Signature.mk.sizeOf_spec]
    rcases h with ⟨p, hp, rfl⟩ | rfl
    · have := List.sizeOf_lt_of_mem hp
      obtain ⟨pname, type⟩ := p
      simp only [Parameter.mk.sizeOf_spec] at this
      dsimp only
      omega
    · omega

theorem sizeOf_part_lt (h : u ∈ t.parts) : sizeOf u < sizeOf t := by
  obtain ⟨category, name, pointers, element, payload, size, origin, isPlaceholder⟩ := t
  simp only [parts, List.mem_append, Option.mem_toList] at h
  simp only [mk.sizeOf_spec]
  rcases h with h | h
  · cases h
    simp only [Option.some.sizeOf_spec]
    omega
  · have := sizeOf_payload_lt h
    omega

/-- What holds of a type if it holds of its parts holds of every type. -/
theorem induction_on_parts {motive : Ty → Prop}
    (h : ∀ t, (∀ u ∈ t.parts, motive u) → motive t) (t : Ty) : motive t :=
  h t fun u hu =>
    have := sizeOf_part_lt hu
    induction_on_parts h u
termination_by sizeOf t

/-! ## 2. Placeholders -/

theorem hasGenerics_eq (t : Ty) :
    t.hasGenerics = (t.category == .generic || t.parts.any hasGenerics) := by
  obtain ⟨category, name, pointers, element, payload, size, origin, isPlaceholder⟩ := t
  have hpayload : payloadHasGenerics payload = payload.types.any hasGenerics := by
    cases payload with
    | func signature =>
      obtain ⟨name, params, result, results⟩ := signature
      simp [payloadHasGenerics, signatureHasGenerics, Payload.types, paramsHaveGenerics_eq_any,
        List.any_append, List.any_map, Function.comp_def]
    | _ => simp [payloadHasGenerics, Payload.types, listHasGenerics_eq_any]
  rw [hasGenerics, optionHasGenerics_eq_any, hpayload, Bool.or_assoc, parts, List.any_append]
  cases element <;> simp

/-- The placeholder of that name is in the type, where arguments are put in for it. -/
inductive Mentions (name : String) : Ty → Prop
  | placeholder {t : Ty} (hc : t.category = .generic) (hn : t.name = name) : Mentions name t
  | part {t u : Ty} (hc : t.category ≠ .generic) (hu : u ∈ t.parts) (h : Mentions name u) :
      Mentions name t

theorem mentions_of_generic (hc : t.category = .generic) : Mentions name t ↔ t.name = name := by
  constructor
  · intro h
    cases h with
    | placeholder _ hn => exact hn
    | part hne => exact absurd hc hne
  · exact fun hn => .placeholder hc hn

theorem mentions_of_not_generic (hc : t.category ≠ .generic) :
    Mentions name t ↔ ∃ u ∈ t.parts, Mentions name u := by
  constructor
  · intro h
    cases h with
    | placeholder hg => exact absurd hg hc
    | part _ hu h => exact ⟨_, hu, h⟩
  · intro h
    obtain ⟨u, hu, h⟩ := h
    exact .part hc hu h

/-- Pointers and the form before do not matter for what is in a type. -/
theorem mentions_congr (hc : t.category = u.category) (hn : t.name = u.name)
    (hp : t.parts = u.parts) : Mentions name t ↔ Mentions name u := by
  by_cases hg : t.category = .generic
  · rw [mentions_of_generic hg, mentions_of_generic (hc ▸ hg), hn]
  · rw [mentions_of_not_generic hg, mentions_of_not_generic (hc ▸ hg), hp]

theorem hasGenerics_iff : t.hasGenerics ↔ ∃ name, Mentions name t := by
  induction t using induction_on_parts with
  | h t ih =>
    rw [hasGenerics_eq]
    by_cases hc : t.category = .generic
    · simp [hc, mentions_of_generic hc]
    · simp only [mentions_of_not_generic hc, beq_eq_false_iff_ne.2 hc, Bool.false_or,
        List.any_eq_true]
      constructor
      · rintro ⟨u, hu, h⟩
        obtain ⟨name, h⟩ := (ih u hu).1 h
        exact ⟨name, u, hu, h⟩
      · rintro ⟨name, u, hu, h⟩
        exact ⟨u, hu, (ih u hu).2 ⟨name, h⟩⟩

/-! ## 3. Arguments put in -/

theorem substitute_of_generic (hc : t.category = .generic) :
    t.substitute params args = substitutePlaceholder params args t := by
  obtain ⟨category, name, pointers, element, payload, size, origin, isPlaceholder⟩ := t
  rw [substitute, if_pos hc]

theorem substitute_of_not_generic (hc : t.category ≠ .generic) :
    t.substitute params args = rename
      { t with
        element := t.element.map (substitute params args)
        payload := substitutePayload params args t.payload } := by
  obtain ⟨category, name, pointers, element, payload, size, origin, isPlaceholder⟩ := t
  rw [substitute, if_neg hc, substituteOption_eq_map]

theorem types_substitutePayload (p : Payload Ty) :
    (substitutePayload params args p).types = p.types.map (substitute params args) := by
  cases p with
  | func signature =>
    obtain ⟨name, targets, result, results⟩ := signature
    simp [substitutePayload, substituteSignature, Payload.types, substituteParams_eq_map,
      Function.comp_def]
  | _ => simp [substitutePayload, Payload.types, substituteList_eq_map]

theorem parts_substitute (hc : t.category ≠ .generic) :
    (t.substitute params args).parts = t.parts.map (substitute params args) := by
  rw [substitute_of_not_generic hc]
  simp only [parts, rename, types_substitutePayload, List.map_append]
  cases t.element <;> rfl

theorem category_substitute (hc : t.category ≠ .generic) :
    (t.substitute params args).category = t.category := by
  rw [substitute_of_not_generic hc, rename]

/-- What is in a type after arguments were put in: the placeholders of it that have no argument,
and what is in the arguments of the others. -/
theorem mentions_substitute_iff :
    Mentions name (t.substitute params args) ↔
      ∃ old, Mentions old t ∧
        ((argument? params args old = none ∧ old = name) ∨
          ∃ arg, argument? params args old = some arg ∧ Mentions name arg) := by
  induction t using induction_on_parts with
  | h t ih =>
    by_cases hc : t.category = .generic
    · rw [substitute_of_generic hc, substitutePlaceholder]
      simp only [mentions_of_generic hc, exists_eq_left']
      cases ha : argument? params args t.name with
      | none => simp [mentions_of_generic hc]
      | some arg =>
        simp only [reduceCtorEq, false_and, false_or, Option.some.injEq, exists_eq_left']
        exact mentions_congr rfl rfl rfl
    · have hc' : (t.substitute params args).category ≠ .generic := category_substitute hc ▸ hc
      rw [mentions_of_not_generic hc', parts_substitute hc]
      simp only [mentions_of_not_generic hc, List.mem_map]
      constructor
      · rintro ⟨_, ⟨u, hu, rfl⟩, h⟩
        obtain ⟨old, hold, h⟩ := (ih u hu).1 h
        exact ⟨old, ⟨u, hu, hold⟩, h⟩
      · rintro ⟨old, ⟨u, hu, hold⟩, h⟩
        exact ⟨_, ⟨u, hu, rfl⟩, (ih u hu).2 ⟨old, hold, h⟩⟩

theorem substitutePayload_eq_self {p : Payload Ty}
    (h : ∀ u ∈ p.types, u.substitute params args = u) : substitutePayload params args p = p := by
  have hlist (ts : List Ty) (h : ∀ u ∈ ts, u.substitute params args = u) :
      substituteList params args ts = ts := by
    rw [substituteList_eq_map]
    exact (List.map_congr_left h).trans (List.map_id ts)
  cases p with
  | none | trait | enum => rfl
  | map key value => simp_all [substitutePayload, Payload.types]
  | struct decl targets => rw [substitutePayload, hlist targets h]
  | tuple components => rw [substitutePayload, hlist components h]
  | func signature =>
    obtain ⟨name, targets, result, results⟩ := signature
    have hresult : result.substitute params args = result := h result (by simp [Payload.types])
    have htarget : ∀ p ∈ targets, { p with type := p.type.substitute params args } = id p := by
      intro p hp
      have htype := h p.type (List.mem_append_left _ (List.mem_map_of_mem hp))
      simp only [htype, id]
    rw [substitutePayload, substituteSignature, substituteParams_eq_map, hresult,
      (List.map_congr_left htarget).trans (List.map_id targets)]

/-- A type that is named after its parts stays as it is if they all do. -/
theorem substitute_eq_self_of_parts (hc : t.category ≠ .generic) (hname : t.rename = t)
    (h : ∀ u ∈ t.parts, u.substitute params args = u) : t.substitute params args = t := by
  have hpayload : substitutePayload params args t.payload = t.payload :=
    substitutePayload_eq_self fun u hu => h u (List.mem_append_right _ hu)
  have helement : t.element.map (substitute params args) = t.element := by
    cases he : t.element with
    | none => rfl
    | some e => simp [h e (by simp [parts, he])]
  rw [substitute_of_not_generic hc, hpayload, helement]
  exact hname

/-- A placeholder that has an argument is replaced, and the type keeps a trace of that: the
placeholder is the origin of what is put in for it. -/
theorem Mentions.substitute_ne_self (h : Mentions name t) {arg : Ty}
    (ha : argument? params args name = some arg) : t.substitute params args ≠ t := by
  induction h with
  | @placeholder t hc hn =>
    subst hn
    intro heq
    have horigin : t.origin = some t := by
      have := congrArg origin heq
      rw [substitute_of_generic hc, substitutePlaceholder, ha] at this
      exact this.symm
    have hsize : sizeOf t.origin < sizeOf t := by
      obtain ⟨category, name, pointers, element, payload, size, origin, isPlaceholder⟩ := t
      simp only [mk.sizeOf_spec]
      omega
    rw [horigin, Option.some.sizeOf_spec] at hsize
    omega
  | @part t u hc hu _ ih =>
    intro heq
    have hparts := congrArg parts heq
    rw [parts_substitute hc] at hparts
    exact ih (List.map_inj_left.1 (hparts.trans (List.map_id _).symm) u hu)

/-! ## 4. Templates -/

/-- The types that the functions of `ExprCheck.Ty.Spelling` put together out of such types. -/
inductive Template : Ty → Prop
  | number (kind : NumberKind) : Template (number kind)
  | bool : Template bool
  | str : Template str
  | nil : Template nil
  | any : Template any
  | void : Template void
  | generic (name : String) : Template (generic name)
  | slice {element : Ty} (h : Template element) : Template (sliceOf element)
  | array {element : Ty} (h : Template element) (size : ArraySize) :
      Template (arrayOf element size)
  | map {key value : Ty} (hk : Template key) (hv : Template value) : Template (mapOf key value)
  | tuple {components : List Ty} (h : ∀ c ∈ components, Template c) :
      Template (tupleOf components)
  | struct (decl : StructDef Ty) {args : List Ty} (h : ∀ a ∈ args, Template a) :
      Template (structOf decl args)
  | trait (decl : TraitDef) : Template (traitOf decl)
  | enum (decl : EnumDef Ty) : Template (enumOf decl)
  | func {signature : Signature Ty} (hp : ∀ p ∈ signature.params, Template p.type)
      (hr : Template signature.result) : Template (funcOf signature)
  | pointers {t : Ty} (h : Template t) (count : Nat) : Template (t.addPointers count)

namespace Template

theorem origin_eq_none (h : Template t) : t.origin = none := by
  induction h with
  | pointers _ _ ih => exact ih
  | _ => rfl

theorem rename_eq_self (h : Template t) : t.rename = t := by
  induction h with
  | pointers _ count ih => exact congrArg (addPointers · count) ih
  | _ => rfl

theorem part (h : Template t) (hu : u ∈ t.parts) : Template u := by
  induction h with
  | pointers _ _ ih => exact ih hu
  | slice h | array h =>
    obtain rfl := List.mem_singleton.1 hu
    exact h
  | map hk hv =>
    simp only [parts_mapOf, List.mem_cons, List.not_mem_nil, or_false] at hu
    rcases hu with rfl | rfl
    · exact hk
    · exact hv
  | tuple h | struct _ h => exact h u hu
  | func hp hr =>
    rw [parts_funcOf, List.mem_append, List.mem_singleton] at hu
    rcases hu with hu | rfl
    · exact List.forall_mem_map.2 hp u hu
    · exact hr
  | _ => cases hu

/-- Putting arguments in leaves a template as it is if and only if none of its placeholders
has one. -/
theorem substitute_eq_self_iff (h : Template t) :
    t.substitute params args = t ↔ ∀ name, Mentions name t → argument? params args name = none := by
  constructor
  · intro heq name hm
    cases ha : argument? params args name with
    | none => rfl
    | some arg => exact absurd heq (hm.substitute_ne_self ha)
  · intro hnone
    induction t using induction_on_parts with
    | h t ih =>
      by_cases hc : t.category = .generic
      · rw [substitute_of_generic hc, substitutePlaceholder, hnone _ (.placeholder hc rfl)]
      · refine substitute_eq_self_of_parts hc h.rename_eq_self fun u hu => ?_
        exact ih u hu (h.part hu) fun name hm => hnone name (.part hc hu hm)

end Template

end Ty

end ExprCheck
