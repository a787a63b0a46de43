/-
ExprCheck.Proofs.Identity — how far a declared type keeps its identity inside other types.

A struct is known by its name in its file, and so it is compared where it stands by
itself. A pointer, a slice or a map around it is compared by its spelling, and so are the
arguments of a struct; a spelling has the names of declarations in it, and no files.
Enums are compared by name everywhere.

`Wrapper` is a type with a place left open, and `fill` puts a type there. What is written
around the place does not depend on what fills it (`toList_spelling_fill`), so two types
are spelled alike in the same wrapper if and only if they are spelled alike themselves;
and but for the empty wrapper that is all that compatibility asks (`compatible_fill`).
-/
import ExprCheck.Proofs.Compatible
import ExprCheck.Proofs.RoundTrip

namespace ExprCheck.Ty

variable {ignoreAny : Bool} {a b t u : Ty}

/-! ## 1. Wrappers -/

/-- A type with one place left open. -/
inductive Wrapper
  | hole
  | pointer (inside : Wrapper)
  | slice (inside : Wrapper)
  | mapKey (inside : Wrapper) (value : Ty)
  | mapValue (key : Ty) (inside : Wrapper)
  /-- The place is in an argument of a struct, with the other arguments around it. -/
  | argument (decl : StructDef Ty) (generic : decl.generics ≠ []) (before : List Ty)
      (inside : Wrapper) (after : List Ty)

/-- The type with the open place filled. -/
def Wrapper.fill : Wrapper → Ty → Ty
  | .hole, t => t
  | .pointer inside, t => (inside.fill t).pointerTo
  | .slice inside, t => sliceOf (inside.fill t)
  | .mapKey inside value, t => mapOf (inside.fill t) value
  | .mapValue key inside, t => mapOf key (inside.fill t)
  | .argument decl _ before inside after, t => structOf decl (before ++ inside.fill t :: after)

/-- The category of a filled wrapper is that of what fills it, or does not depend on it. -/
theorem category_fill (w : Wrapper) (h : t.category = u.category) :
    (w.fill t).category = (w.fill u).category := by
  induction w with
  | hole => exact h
  | pointer inside ih => exact ih
  | slice | mapKey | mapValue | argument => rfl

/-! ## 2. Spellings of filled wrappers -/

theorem toList_spelling_structOf (decl : StructDef Ty) {args : List Ty} (h : args ≠ []) :
    (structOf decl args).spelling.toList = decl.name.toList ++
      '[' :: ([','].intercalate (args.map (·.spelling.toList)) ++ [']']) := by
  have hname : (structOf decl args).name = decl.name ++ "[" ++ spellings args ++ "]" :=
    if_neg (by simpa using h)
  rw [toList_spelling, hname]
  simp [spellings, String.toList_intercalate, Function.comp_def, structOf, rename, simple]

/-- What is written around one of several texts in a row does not depend on that text. -/
theorem exists_intercalate (before after : List (List Char)) : ∃ front back, ∀ cs,
    [','].intercalate (before ++ cs :: after) = front ++ cs ++ back := by
  induction before with
  | nil =>
    cases after with
    | nil => exact ⟨[], [], fun cs => by simp⟩
    | cons part parts =>
      refine ⟨[], ',' :: [','].intercalate (part :: parts), fun cs => ?_⟩
      rw [List.nil_append, intercalate_cons_cons]
      simp
  | cons part parts ih =>
    obtain ⟨front, back, hcs⟩ := ih
    refine ⟨part ++ ',' :: front, back, fun cs => ?_⟩
    have hrest : ∃ next rest, parts ++ cs :: after = next :: rest := by
      cases parts with
      | nil => exact ⟨cs, after, rfl⟩
      | cons next rest => exact ⟨next, rest ++ cs :: after, rfl⟩
    obtain ⟨next, rest, hrest⟩ := hrest
    rw [List.cons_append, hrest, intercalate_cons_cons, ← hrest, hcs cs]
    simp

/-- A filled wrapper is spelled like what fills it, with the same text around it. -/
theorem toList_spelling_fill (w : Wrapper) : ∃ front back : List Char, ∀ t : Ty,
    (w.fill t).spelling.toList = front ++ t.spelling.toList ++ back := by
  induction w with
  | hole => exact ⟨[], [], fun t => by simp [Wrapper.fill]⟩
  | pointer inside ih =>
    obtain ⟨front, back, h⟩ := ih
    refine ⟨'*' :: front, back, fun t => ?_⟩
    rw [Wrapper.fill, pointerTo, toList_spelling_addPointers, h t]
    rfl
  | slice inside ih =>
    obtain ⟨front, back, h⟩ := ih
    refine ⟨'[' :: ']' :: front, back, fun t => ?_⟩
    rw [Wrapper.fill, toList_spelling_sliceOf, h t]
    rfl
  | mapKey inside value ih =>
    obtain ⟨front, back, h⟩ := ih
    refine ⟨'[' :: front, back ++ ':' :: value.spelling.toList ++ [']'], fun t => ?_⟩
    rw [Wrapper.fill, toList_spelling_mapOf, h t]
    simp
  | mapValue key inside ih =>
    obtain ⟨front, back, h⟩ := ih
    refine ⟨'[' :: key.spelling.toList ++ ':' :: front, back ++ [']'], fun t => ?_⟩
    rw [Wrapper.fill, toList_spelling_mapOf, h t]
    simp
  | argument decl generic before inside after ih =>
    obtain ⟨front, back, h⟩ := ih
    obtain ⟨front', back', h'⟩ := exists_intercalate (before.map (·.spelling.toList))
      (after.map (·.spelling.toList))
    refine ⟨decl.name.toList ++ '[' :: front' ++ front, back ++ back' ++ [']'], fun t => ?_⟩
    rw [Wrapper.fill, toList_spelling_structOf decl (by simp), List.map_append, List.map_cons,
      h' _, h t]
    simp

/-- In the same wrapper two types are spelled alike if and only if they are by themselves. -/
theorem spelling_fill_inj (w : Wrapper) :
    (w.fill t).spelling = (w.fill u).spelling ↔ t.spelling = u.spelling := by
  obtain ⟨front, back, h⟩ := toList_spelling_fill w
  rw [← String.toList_inj, h t, h u, List.append_left_inj, List.append_right_inj,
    String.toList_inj]

theorem looksLike_fill (w : Wrapper) (h : t.category = u.category) :
    looksLike (w.fill t) (w.fill u) ↔ t.spelling = u.spelling := by
  simp [looksLike, category_fill w h, spelling_fill_inj]

/-! ## 3. Compatibility of filled wrappers -/

theorem verdict?_slices (element element' : Ty) :
    verdict? ignoreAny (sliceOf element) (sliceOf element') =
      some (nilOrSame (sliceOf element) (sliceOf element')) :=
  verdict?_of_isSlice Bool.false_ne_true (by simp [isSlice_sliceOf])

theorem verdict?_maps (key value key' value' : Ty) :
    verdict? ignoreAny (mapOf key value) (mapOf key' value') =
      some (nilOrSame (mapOf key value) (mapOf key' value')) :=
  verdict?_of_isMap Bool.false_ne_true Bool.false_ne_true Bool.false_ne_true (by simp [isMap_mapOf])

theorem compatible_of_nilOrSame (hverdict : verdict? ignoreAny a b = some (nilOrSame a b))
    (ha : a.isNil = false) (hb : b.isNil = false) :
    compatible ignoreAny a b ↔ a.spelling = b.spelling := by
  rw [compatible_eq, hverdict, Option.getD_some, nilOrSame, ha, hb]
  simp

/-- The rule for structs decides where both types are structs. -/
theorem compatible_structs (d e : StructDef Ty) (as bs : List Ty) :
    compatible ignoreAny (structOf d as) (structOf e bs) =
      (d.sameAs e && (d.generics.isEmpty ||
        (as.length == bs.length && (as.zip bs).all fun p => looksLike p.1 p.2))) := by
  rw [compatible_eq]
  rfl

theorem all_looksLike_self (ts : List Ty) : (ts.zip ts).all fun p => looksLike p.1 p.2 := by
  induction ts with
  | nil => rfl
  | cons t ts ih => simpa [looksLike] using ih

/-- Of arguments that differ in one place at most, that place decides. -/
theorem compatible_arguments {decl : StructDef Ty} (generic : decl.generics ≠ [])
    (before after : List Ty) :
    compatible ignoreAny (structOf decl (before ++ a :: after))
      (structOf decl (before ++ b :: after)) ↔ looksLike a b := by
  have hself : decl.sameAs decl := (sameAs_iff decl decl).2 ⟨rfl, rfl⟩
  have hzip : (before ++ a :: after).zip (before ++ b :: after) =
      before.zip before ++ (a, b) :: after.zip after := by
    rw [List.zip_append rfl, List.zip_cons_cons]
  rw [compatible_structs, hself, hzip, List.all_append, List.all_cons, all_looksLike_self,
    all_looksLike_self]
  simp [generic]

/-- In any wrapper but the empty one, types of one category are compatible if and only if
they are spelled alike. -/
theorem compatible_fill {w : Wrapper} (hw : w ≠ .hole) (h : t.category = u.category) :
    compatible ignoreAny (w.fill t) (w.fill u) ↔ t.spelling = u.spelling := by
  cases w with
  | hole => exact absurd rfl hw
  | pointer inside =>
    have hpointer (t : Ty) : ((Wrapper.pointer inside).fill t).isPointer := by
      simp [Wrapper.fill, isPointer, pointerTo, addPointers]
    rw [← spelling_fill_inj (.pointer inside)]
    exact compatible_of_nilOrSame (verdict?_of_isPointer (by simp [hpointer]))
      (isNil_of_isPointer (hpointer t)) (isNil_of_isPointer (hpointer u))
  | slice inside =>
    rw [← spelling_fill_inj (.slice inside)]
    exact compatible_of_nilOrSame (verdict?_slices _ _) rfl rfl
  | mapKey inside value =>
    rw [← spelling_fill_inj (.mapKey inside value)]
    exact compatible_of_nilOrSame (verdict?_maps _ _ _ _) rfl rfl
  | mapValue key inside =>
    rw [← spelling_fill_inj (.mapValue key inside)]
    exact compatible_of_nilOrSame (verdict?_maps _ _ _ _) rfl rfl
  | argument decl generic before inside after =>
    -- the declaration is the same, and so are all arguments but that with the open place
    rw [← looksLike_fill inside h]
    exact compatible_arguments generic before after

/-- Structs without arguments are compatible if they are one declaration. -/
theorem compatible_bare_structs (d e : StructDef Ty) :
    compatible ignoreAny (structOf d []) (structOf e []) ↔ d.name = e.name ∧ d.file = e.file := by
  have harguments : (([] : List Ty).length == ([] : List Ty).length &&
      (([] : List Ty).zip []).all fun p => looksLike p.1 p.2) = true := rfl
  rw [compatible_structs, harguments, Bool.or_true, Bool.and_true, sameAs_iff]

/-- Enums are compatible if they have one name. -/
theorem compatible_bare_enums (d e : EnumDef Ty) :
    compatible ignoreAny (enumOf d) (enumOf e) ↔ d.name = e.name := by
  have hverdict : verdict? ignoreAny (enumOf d) (enumOf e) =
      some (decide ((Category.enum = .enum) ∧ d.name = e.name)) := rfl
  rw [compatible_eq, hverdict, Option.getD_some]
  simp

theorem spelling_of_pointers_eq_zero (h : t.pointers = 0) : t.spelling = t.name := by
  rw [← String.toList_inj, toList_spelling, h]
  rfl

/-- In the same wrapper, structs without arguments and enums are compatible if and only if
they have one name; structs in the empty wrapper have to be of one file too. -/
theorem compatible_fill_declared (w : Wrapper) (ignoreAny : Bool) :
    (∀ d e : StructDef Ty,
      compatible ignoreAny (w.fill (structOf d [])) (w.fill (structOf e [])) ↔
        d.name = e.name ∧ (w = .hole → d.file = e.file)) ∧
    ∀ d e : EnumDef Ty,
      compatible ignoreAny (w.fill (enumOf d)) (w.fill (enumOf e)) ↔ d.name = e.name := by
  have hstruct (d : StructDef Ty) : (structOf d []).spelling = d.name := spelling_of_pointers_eq_zero rfl
  have henum (d : EnumDef Ty) : (enumOf d).spelling = d.name := spelling_of_pointers_eq_zero rfl
  by_cases hw : w = .hole
  · subst hw
    refine ⟨fun d e => ?_, compatible_bare_enums⟩
    rw [Wrapper.fill, Wrapper.fill, compatible_bare_structs]
    simp
  · refine ⟨fun d e => ?_, fun d e => ?_⟩
    · have hcategory : (structOf d []).category = (structOf e []).category := rfl
      rw [compatible_fill hw hcategory, hstruct, hstruct]
      exact (and_iff_left fun hhole => absurd hhole hw).symm
    · have hcategory : (enumOf d).category = (enumOf e).category := rfl
      rw [compatible_fill hw hcategory, henum, henum]

/-- Pointers to structs of one name meet although the structs are declared in two files. -/
theorem compatible_pointers_of_two_files :
    let p : StructDef Ty := ⟨"Point", "a.jn", [], [], []⟩
    let q : StructDef Ty := ⟨"Point", "b.jn", [], [], []⟩
    compatible false ((Wrapper.pointer .hole).fill (structOf p []))
        ((Wrapper.pointer .hole).fill (structOf q [])) ∧ p.file ≠ q.file :=
  ⟨rfl, by decide⟩

end ExprCheck.Ty
