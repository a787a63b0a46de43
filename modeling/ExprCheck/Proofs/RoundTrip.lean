/-
ExprCheck.Proofs.RoundTrip — a type that was read is read back from its spelling.

A spelling may have blanks in it, signs in front of counts and second names for types,
and all of that is gone from the type, so reading is not injective. What holds is that
the spelling of a type that was read is read as that type, and so that two such types
with one spelling are the same in every part.

`Readable` is what reading yields. Its spellings are balanced in the sense of
`ExprCheck.Proofs.Brackets`, so the outermost brackets of a spelling are those that
were put around it when it was written, and it is read part by part
(`ExprCheck.Proofs.Reading`). Being balanced takes less than being readable (`Builtin`): a
tuple may be empty, and a size may be an expression.
-/
import ExprCheck.Proofs.Reading

namespace ExprCheck

/-! ## 1. Counts -/

namespace Text

theorem readDecimal64?_toString {n : Nat} (h : n < Nat.pow 2 64) :
    readDecimal64? (toString n).toList = some n := by
  rw [readDecimal64?, readNat?_eq rfl toString_ne_nil isDigit_toString, ofDigits_toString]
  rwa [ofDigits_toString]

theorem readDecimal64?_lt {cs : List Char} {n : Nat} (h : readDecimal64? cs = some n) :
    n < Nat.pow 2 64 := by
  unfold readDecimal64? readNat? at h
  generalize (if cs.head? = some '+' then cs.tail else cs) = ds at h
  dsimp only at h
  split at h
  · cases h
  · split at h
    · rename_i hlt
      cases h
      exact hlt
    · cases h

end Text

/-! ## 2. The types that are read -/

/-- The size can be read between the brackets of an array. -/
def ArraySize.Readable : ArraySize → Prop
  | .fixed n => n < Nat.pow 2 64
  | .auto => True
  | .deferred _ => False

namespace Ty

/-- The types that reading yields. -/
inductive Readable : Ty → Prop
  | number (kind : NumberKind) : Readable (number kind)
  | bool : Readable bool
  | str : Readable str
  | nil : Readable nil
  | any : Readable any
  | void : Readable void
  | slice {element : Ty} (h : Readable element) : Readable (sliceOf element)
  | array {element : Ty} {size : ArraySize} (h : Readable element) (hs : size.Readable) :
      Readable (arrayOf element size)
  | map {key value : Ty} (hk : Readable key) (hv : Readable value) : Readable (mapOf key value)
  | tuple {components : List Ty} (hne : components ≠ [])
      (h : ∀ c ∈ components, Readable c) : Readable (tupleOf components)
  | pointers {t : Ty} (h : Readable t) (count : Nat) : Readable (t.addPointers count)

/-! ## 3. What is read is readable -/

/-- What a shape says of its own, next to its parts, is readable. -/
def Shape.Readable : Shape → Prop
  | .named t => Ty.Readable t
  | .array size _ => size.Readable
  | .tuple components => components ≠ []
  | .slice _ | .map _ _ => True

theorem readable_of_ofName? {name : String} {t : Ty} (h : ofName? name = some t) :
    Readable t := by
  unfold ofName? at h
  split at h
  · cases h; exact .bool
  · cases h; exact .str
  · cases h; exact .any
  · cases h; exact .nil
  · cases h; exact .void
  · obtain ⟨kind, -, rfl⟩ := Option.map_eq_some_iff.1 h
    exact .number kind

theorem readable_of_arraySize? {cs : List Char} {size : ArraySize} (h : arraySize? cs = some size) :
    size.Readable := by
  unfold arraySize? at h
  dsimp only at h
  split at h
  · cases h
    trivial
  · obtain ⟨n, hn, rfl⟩ := Option.map_eq_some_iff.1 h
    exact Text.readDecimal64?_lt hn

theorem readable_of_shape? {cs : List Char} {s : Shape} (h : shape? cs = some s) : s.Readable := by
  cases shaped_of_shape? h with
  | named hname => exact readable_of_ofName? hname
  | slice | map => trivial
  | array hsize => exact readable_of_arraySize? hsize
  | tuple hne => exact hne

/-- The values of a list that could all be found. -/
theorem forall_of_mapM {α β : Type} {f : α → Option β} {P : β → Prop} {as : List α}
    {bs : List β} (h : as.mapM f = some bs) (hP : ∀ a ∈ as, ∀ b, f a = some b → P b) :
    bs.length = as.length ∧ ∀ b ∈ bs, P b := by
  induction as generalizing bs with
  | nil =>
    rw [List.mapM_nil] at h
    cases h
    simp
  | cons a as ih =>
    rw [List.mapM_cons] at h
    obtain ⟨b, hb, h⟩ := Option.bind_eq_some_iff.1 h
    obtain ⟨bs', hbs, h⟩ := Option.bind_eq_some_iff.1 h
    cases h
    have := ih hbs fun a ha => hP a (List.mem_cons_of_mem _ ha)
    simpa [this.1] using ⟨hP a (List.mem_cons_self ..) b hb, this.2⟩

/-- Reading yields readable types. -/
theorem readable_of_read? {cs : List Char} {t : Ty} (h : read? cs = some t) : Readable t := by
  rw [read?_eq] at h
  obtain ⟨bare, hbare, rfl⟩ := Option.map_eq_some_iff.1 h
  obtain ⟨s, hs, hbare⟩ := Option.bind_eq_some_iff.1 hbare
  have hshape := readable_of_shape? hs
  have smaller : ∀ part ∈ s.parts, part.length < cs.length := fun _ hp =>
    Nat.lt_of_lt_of_le (shape?_length hs hp) (length_unwrapped_le cs)
  refine .pointers ?_ _
  cases s with
  | named t =>
    cases hbare
    exact hshape
  | slice element =>
    obtain ⟨e, he, rfl⟩ := Option.map_eq_some_iff.1 hbare
    have := smaller element (by simp [Shape.parts])
    exact .slice (readable_of_read? he)
  | array size element =>
    obtain ⟨e, he, rfl⟩ := Option.map_eq_some_iff.1 hbare
    have := smaller element (by simp [Shape.parts])
    exact .array (readable_of_read? he) hshape
  | map key value =>
    obtain ⟨k, hk, hbare⟩ := Option.bind_eq_some_iff.1 hbare
    obtain ⟨v, hv, rfl⟩ := Option.map_eq_some_iff.1 hbare
    have := smaller key (by simp [Shape.parts])
    have := smaller value (by simp [Shape.parts])
    exact .map (readable_of_read? hk) (readable_of_read? hv)
  | tuple components =>
    obtain ⟨ts, hts, rfl⟩ := Option.map_eq_some_iff.1 hbare
    obtain ⟨hlength, hall⟩ := forall_of_mapM hts fun part hp t ht =>
      have := smaller part hp
      readable_of_read? ht
    refine .tuple (fun hnil => hshape ?_) hall
    exact List.eq_nil_of_length_eq_zero (by rw [← hlength, hnil]; rfl)
termination_by cs.length

/-! ## 4. Readable types are read back -/

theorem toList_spelling (t : Ty) :
    t.spelling.toList = List.replicate t.pointers '*' ++ t.name.toList := by
  simp [spelling]

theorem toList_spelling_addPointers (t : Ty) (count : Nat) :
    (t.addPointers count).spelling.toList = List.replicate count '*' ++ t.spelling.toList := by
  rw [toList_spelling, toList_spelling, ← List.append_assoc, List.replicate_append_replicate,
    Nat.add_comm]
  rfl

theorem toList_spelling_sliceOf (element : Ty) :
    (sliceOf element).spelling.toList = '[' :: ']' :: element.spelling.toList := by
  simp [toList_spelling, sliceOf, rename, derivedName?, simple, elementSpelling]

theorem toList_spelling_arrayOf (element : Ty) (size : ArraySize) :
    (arrayOf element size).spelling.toList =
      '[' :: (size.text.toList ++ ']' :: element.spelling.toList) := by
  simp [toList_spelling, arrayOf, rename, derivedName?, simple, elementSpelling]

theorem toList_spelling_mapOf (key value : Ty) :
    (mapOf key value).spelling.toList =
      '[' :: (key.spelling.toList ++ ':' :: value.spelling.toList ++ [']']) := by
  simp [toList_spelling, mapOf, rename, derivedName?, simple]

theorem toList_spelling_tupleOf (components : List Ty) :
    (tupleOf components).spelling.toList =
      '(' :: ([','].intercalate (components.map (·.spelling.toList)) ++ [')']) := by
  simp [toList_spelling, tupleOf, rename, derivedName?, simple, spellings,
    String.toList_intercalate, Function.comp_def]

/-- The text of a readable size is plain, and the size is read from it. -/
theorem isPlain_text {size : ArraySize} (h : size.Readable) : size.text.toList.all isPlain := by
  cases size with
  | fixed n =>
    exact List.all_eq_true.2 fun c hc => isPlain_of_isDigit (Text.isDigit_toString c hc)
  | auto => decide
  | deferred => exact h.elim

theorem arraySize?_text {size : ArraySize} (h : size.Readable) :
    arraySize? size.text.toList = some size := by
  have hbalanced : Balanced false size.text.toList := .of_plain (isPlain_text h)
  unfold arraySize?
  rw [Text.trim_eq_self hbalanced.not_blank]
  cases size with
  | fixed n =>
    have hdots : (toString n).toList ≠ ['.', '.', '.'] := by
      intro hdots
      have := Text.isDigit_toString (n := n) '.' (by rw [hdots]; simp)
      cases this
    simp only [ArraySize.text, if_neg hdots, Text.readDecimal64?_toString h, Option.map_some]
  | auto => rfl
  | deferred => exact h.elim

/-- No text of a readable size begins with a closing bracket, so an array is not taken
for a slice. -/
theorem head?_text_append {size : ArraySize} (h : size.Readable) (rest : List Char) :
    (size.text.toList ++ rest).head? ≠ some ']' := by
  have hread := arraySize?_text h
  exact head?_append_ne (closed_of_arraySize? hread) (ne_nil_of_arraySize? hread) rest

/-- The types that need no declaration, put together in any way. Where the size of an array is
still an expression, the brackets in it have to close. -/
inductive Builtin : Ty → Prop
  | number (kind : NumberKind) : Builtin (number kind)
  | bool : Builtin bool
  | str : Builtin str
  | nil : Builtin nil
  | any : Builtin any
  | void : Builtin void
  | slice {element : Ty} (h : Builtin element) : Builtin (sliceOf element)
  | array {element : Ty} {size : ArraySize} (h : Builtin element)
      (hs : Balanced true size.text.toList) : Builtin (arrayOf element size)
  | map {key value : Ty} (hk : Builtin key) (hv : Builtin value) : Builtin (mapOf key value)
  | tuple {components : List Ty} (h : ∀ c ∈ components, Builtin c) : Builtin (tupleOf components)
  | pointers {t : Ty} (h : Builtin t) (count : Nat) : Builtin (t.addPointers count)

/-- The spelling of a type that needs no declaration is balanced. -/
theorem Builtin.balanced {t : Ty} (h : Builtin t) : Balanced false t.spelling.toList := by
  induction h with
  | number kind => exact .of_plain (by cases kind <;> decide)
  | bool | str | nil | any | void => exact .of_plain (by decide)
  | slice _ ih =>
    rw [toList_spelling_sliceOf]
    exact .group (.inl ⟨rfl, rfl⟩) .nil ih
  | array _ hs ih =>
    rw [toList_spelling_arrayOf]
    exact .group (.inl ⟨rfl, rfl⟩) hs ih
  | map _ _ ihk ihv =>
    rw [toList_spelling_mapOf]
    exact .group (.inl ⟨rfl, rfl⟩)
      (ihk.toInside.append (.separator (.inl rfl) ihv.toInside)) .nil
  | tuple _ ih =>
    rw [toList_spelling_tupleOf]
    exact .group (.inr ⟨rfl, rfl⟩) (.intercalate (by simpa using ih)) .nil
  | pointers _ count ih =>
    rw [toList_spelling_addPointers]
    have hstars : (List.replicate count '*').all isPlain :=
      List.all_eq_true.2 fun c hc => List.eq_of_mem_replicate hc ▸ by decide
    exact .append (.of_plain hstars) ih

theorem Readable.builtin {t : Ty} (h : Readable t) : Builtin t := by
  induction h with
  | number kind => exact .number kind
  | bool => exact .bool
  | str => exact .str
  | nil => exact .nil
  | any => exact .any
  | void => exact .void
  | slice _ ih => exact .slice ih
  | array _ hs ih => exact .array ih (.of_plain (isPlain_text hs))
  | map _ _ ihk ihv => exact .map ihk ihv
  | tuple _ _ ih => exact .tuple ih
  | pointers _ count ih => exact .pointers ih count

/-- The spelling of a readable type is balanced. -/
theorem Readable.balanced {t : Ty} (h : Readable t) : Balanced false t.spelling.toList :=
  h.builtin.balanced

theorem mapM_eq_some {α : Type} {f : α → Option α} {as : List α}
    (h : ∀ a ∈ as, f a = some a) : as.mapM f = some as := by
  induction as with
  | nil => rfl
  | cons a as ih =>
    rw [List.mapM_cons, h a (List.mem_cons_self ..), ih fun a ha => h a (List.mem_cons_of_mem _ ha)]
    rfl

theorem read?_name {name : String} {t : Ty} (h : ofName? name = some t) :
    read? name.toList = some t :=
  read?_of_shaped (.named (by rwa [String.ofList_toList])) (by simp [Shape.parts])

/-- A readable type is read from its spelling. -/
theorem Readable.read?_spelling {t : Ty} (h : Readable t) : read? t.spelling.toList = some t := by
  induction h with
  | number kind => exact read?_name (by cases kind <;> rfl)
  | bool | str | nil | any | void => exact read?_name rfl
  | @slice element h ih =>
    have hparts : ∀ p ∈ [element.spelling.toList], Closed false p := by
      simpa using h.balanced.closed
    rw [toList_spelling_sliceOf, read?_of_shaped (.slice _) hparts, ofShape?, ih, Option.map_some]
  | @array element size h hs ih =>
    have hparts : ∀ p ∈ [element.spelling.toList], Closed false p := by
      simpa using h.balanced.closed
    rw [toList_spelling_arrayOf, read?_of_shaped (.array (arraySize?_text hs) _) hparts, ofShape?,
      ih, Option.map_some]
  | @map key value hk hv ihk ihv =>
    have hparts : ∀ p ∈ [key.spelling.toList, value.spelling.toList], Closed false p := by
      simpa using ⟨hk.balanced.closed, hv.balanced.closed⟩
    rw [toList_spelling_mapOf, read?_of_shaped (.map _ _) hparts, ofShape?, ihk, ihv,
      Option.bind_some, Option.map_some]
  | @tuple components hne h ih =>
    have hparts : ∀ p ∈ components.map (·.spelling.toList), Closed false p := by
      simpa using fun c hc => (h c hc).balanced.closed
    have hall : (components.map (·.spelling.toList)).mapM read? = some components := by
      rw [List.mapM_map]
      exact mapM_eq_some ih
    rw [toList_spelling_tupleOf, read?_of_shaped (.tuple (by simpa using hne)) hparts, ofShape?,
      hall, Option.map_some]
  | pointers _ count ih =>
    rw [toList_spelling_addPointers, read?_stars, ih]
    rfl

/-- A type that was read is read again from its spelling, and so no other type that was
read is spelled the same. -/
theorem ofSpelling?_spelling {s : String} {t : Ty} (h : ofSpelling? s = some t) :
    ofSpelling? t.spelling = some t ∧
      ∀ s' t', ofSpelling? s' = some t' → t'.spelling = t.spelling → t' = t := by
  have again : ∀ {s t}, ofSpelling? s = some t → ofSpelling? t.spelling = some t :=
    fun h => (readable_of_read? h).read?_spelling
  refine ⟨again h, fun s' t' h' hspelling => ?_⟩
  have h' := again h'
  rw [hspelling, again h] at h'
  exact (Option.some.inj h').symm

/-- A pointer to an array, spelled with a blank, a sign and a second name. -/
theorem ofSpelling?_spelling_array :
    let t := (arrayOf (number .i64) (.fixed 4)).pointerTo
    ofSpelling? "*[ +4]int" = some t ∧ ofSpelling? t.spelling = some t := by
  intro t
  have helement : read? "int".toList = some (number .i64) := by
    rw [read?_eq]
    rfl
  have hshape : shape? (unwrapped "*[ +4]int".toList) =
      some (.array (.fixed 4) "int".toList) := rfl
  have hread : ofSpelling? "*[ +4]int" = some t := by
    rw [ofSpelling?, read?_eq, hshape, Option.bind_some, ofShape?, helement]
    rfl
  exact ⟨hread, (ofSpelling?_spelling hread).1⟩

end Ty

end ExprCheck
