/-
ExprCheck.Proofs.Spaces — blanks around the components of a spelling.

A component is an element, a key or a value, or an item of a tuple, at any depth. `Surrounds`
says what stands before and after one: the brackets and separators that make it a component,
whatever stands beside it between the same brackets, and the same again for what is around
those. A spelling reads as something only if its component does, and what it reads as depends
on the component by nothing but that (`Surrounds.exists_bind`). So it is enough to know what
blanks do to a spelling that stands alone.

They do nothing, with one exception. The stars in front of a spelling are stripped before
blanks are, and so a star that comes after a blank is not found: `[str:*i32]` is a map, and
`[str: *i32]` is nothing. `Spaced` is any number of blanks put in around components, and tells
whether some were put in front of a star. If they were, nothing is read, and if not, what was
read before (`ofSpelling?_spaced`).
-/
import ExprCheck.Proofs.RoundTrip

namespace ExprCheck.Ty

open Text (Blanks)

variable {before after part gap gap' new new' : List Char}

/-! ## 1. Components in their places -/

/-- What stands between these texts is a component of the whole. -/
inductive Surrounds : List Char → List Char → Prop
  /-- The element of a slice. -/
  | slice : Surrounds ['[', ']'] []
  /-- The element of an array. -/
  | array {text : List Char} {size : ArraySize} (h : arraySize? text = some size) :
      Surrounds ('[' :: (text ++ [']'])) []
  | key {value : List Char} (h : Closed false value) : Surrounds ['['] (':' :: value ++ [']'])
  | value {key : List Char} (h : Closed false key) : Surrounds ('[' :: (key ++ [':'])) [']']
  /-- An item of a tuple, with other items on either side. -/
  | item {items items' : List (List Char)} (h : ∀ p ∈ items, Closed false p)
      (h' : ∀ p ∈ items', Closed false p) :
      Surrounds ('(' :: items.flatMap (· ++ [','])) (items'.flatMap (',' :: ·) ++ [')'])
  /-- A pointer has the components of what it leads to. -/
  | star {before after : List Char} (h : Surrounds before after) : Surrounds ('*' :: before) after
  /-- Blanks around the whole. -/
  | blanks {before after gap gap' : List Char} (h : Surrounds before after) (hgap : Blanks gap)
      (hgap' : Blanks gap') : Surrounds (gap ++ before) (after ++ gap')
  /-- A component of a component. -/
  | within {before after before' after' : List Char} (outer : Surrounds before after)
      (inner : Surrounds before' after') : Surrounds (before ++ before') (after' ++ after)

theorem Surrounds.ne_nil (h : Surrounds before after) : before ≠ [] := by
  induction h with
  | slice | array | key | value | item | star => exact List.cons_ne_nil _ _
  | blanks _ _ _ ih => exact List.append_ne_nil_of_right_ne_nil _ ih
  | within _ _ ih => exact List.append_ne_nil_of_left_ne_nil ih _

/-- Items with commas between, one of them apart. -/
theorem intercalate_around (items : List (List Char)) (part : List Char)
    (items' : List (List Char)) :
    [','].intercalate (items ++ part :: items') =
      items.flatMap (· ++ [',']) ++ part ++ items'.flatMap (',' :: ·) := by
  induction items with
  | nil => rw [List.nil_append, intercalate_cons, List.flatMap_nil, List.nil_append]
  | cons item items ih =>
    obtain ⟨next, rest, hnext⟩ : ∃ next rest, items ++ part :: items' = next :: rest :=
      List.exists_cons_of_ne_nil (by simp)
    rw [List.cons_append, hnext, intercalate_cons_cons, ← hnext, ih]
    simp

theorem Surrounds.closed (h : Surrounds before after) (hpart : Closed false part) :
    Closed false (before ++ part ++ after) := by
  induction h generalizing part with
  | slice => simpa using Closed.group (.inl ⟨rfl, rfl⟩) .nil hpart
  | array h => simpa using Closed.group (.inl ⟨rfl, rfl⟩) (closed_of_arraySize? h) hpart
  | key h =>
    simpa using Closed.group (.inl ⟨rfl, rfl⟩)
      (hpart.toInside.append (.separator (.inl rfl) h.toInside)) .nil
  | value h =>
    simpa using Closed.group (.inl ⟨rfl, rfl⟩)
      (h.toInside.append (.separator (.inl rfl) hpart.toInside)) .nil
  | @item items items' h h' =>
    have hitems : Closed true (items.flatMap (· ++ [','])) :=
      .flatMap fun p hp => (h p hp).toInside.append (.separator (.inr rfl) .nil)
    have hitems' : Closed true (items'.flatMap (',' :: ·)) :=
      .flatMap fun p hp => .separator (.inr rfl) (h' p hp).toInside
    simpa using Closed.group (.inr ⟨rfl, rfl⟩)
      ((hitems.append hpart.toInside).append hitems') .nil
  | star _ ih => exact .plain rfl (ih hpart)
  | blanks _ hgap hgap' ih =>
    simpa using (closed_of_blanks hgap).append ((ih hpart).append (closed_of_blanks hgap'))
  | within _ _ ih ih' => simpa using ih (ih' hpart)

/-- What a spelling reads as depends on a component by what the component reads as, and if the
component is nothing, the whole is nothing. -/
theorem Surrounds.exists_bind (h : Surrounds before after) : ∃ f : Ty → Option Ty,
    ∀ part, Closed false part → read? (before ++ part ++ after) = (read? part).bind f := by
  induction h with
  | slice =>
    refine ⟨some ∘ sliceOf, fun part hpart => ?_⟩
    have hread := read?_of_shaped (.slice part) (by simpa [Shape.parts] using hpart)
    simpa [ofShape?, Option.map_eq_bind] using hread
  | @array text size h =>
    refine ⟨some ∘ (arrayOf · size), fun part hpart => ?_⟩
    have hread := read?_of_shaped (.array h part) (by simpa [Shape.parts] using hpart)
    simpa [ofShape?, Option.map_eq_bind] using hread
  | @key value h =>
    refine ⟨fun k => (read? value).map (mapOf k), fun part hpart => ?_⟩
    have hread := read?_of_shaped (.map part value) (by simpa [Shape.parts] using ⟨hpart, h⟩)
    simpa [ofShape?] using hread
  | @value key h =>
    refine ⟨fun v => (read? key).map (mapOf · v), fun part hpart => ?_⟩
    have hread := read?_of_shaped (.map key part) (by simpa [Shape.parts] using ⟨h, hpart⟩)
    cases hkey : read? key <;> cases hvalue : read? part <;>
      simpa [ofShape?, hkey, hvalue] using hread
  | @item items items' h h' =>
    refine ⟨fun t => (items.mapM read?).bind fun ts =>
      (items'.mapM read?).map fun ts' => tupleOf (ts ++ t :: ts'), fun part hpart => ?_⟩
    have hparts : ∀ p ∈ items ++ part :: items', Closed false p := by
      simp only [List.forall_mem_append, List.forall_mem_cons]
      exact ⟨h, hpart, h'⟩
    have hread := read?_of_shaped (.tuple (by simp)) hparts
    rw [intercalate_around] at hread
    cases hitems : items.mapM read? <;> cases hvalue : read? part <;>
      cases hitems' : items'.mapM read? <;>
      simpa [ofShape?, hitems, hvalue, hitems'] using hread
  | star _ ih =>
    obtain ⟨f, hf⟩ := ih
    refine ⟨Option.map pointerTo ∘ f, fun part hpart => ?_⟩
    rw [← Option.map_bind, ← hf part hpart]
    exact read?_stars 1 _
  | @blanks before after gap gap' h hgap hgap' ih =>
    obtain ⟨f, hf⟩ := ih
    refine ⟨fun t => if gap ≠ [] ∧ before.head? = some '*' then none else f t,
      fun part hpart => ?_⟩
    have hhead : (before ++ part ++ after).head? = before.head? := by
      rw [List.append_assoc, List.head?_append, Option.or_of_isSome (by simpa using h.ne_nil)]
    have hassoc : gap ++ before ++ part ++ (after ++ gap') =
        gap ++ (before ++ part ++ after) ++ gap' := by simp
    rw [hassoc, read?_append_blanks hgap', read?_blanks_append hgap, hhead, hf part hpart]
    split
    · simp
    · rfl
  | @within before after before' after' _ inner ih ih' =>
    obtain ⟨f, hf⟩ := ih
    obtain ⟨f', hf'⟩ := ih'
    refine ⟨fun t => (f' t).bind f, fun part hpart => ?_⟩
    have hassoc : before ++ before' ++ part ++ (after' ++ after) =
        before ++ (before' ++ part ++ after') ++ after := by simp
    rw [hassoc, hf _ (inner.closed hpart), hf' part hpart, Option.bind_assoc]

/-! ## 2. Blanks around a component -/

/-- Blanks put in on either side of a component, inside the blanks that are there already,
do not matter, unless they come in front of a star. Then nothing is read. -/
theorem Surrounds.read?_spaced (h : Surrounds before after) (hpart : Closed false part)
    (hgap : Blanks gap) (hgap' : Blanks gap') (hnew : Blanks new) (hnew' : Blanks new') :
    read? (before ++ (gap ++ new ++ part ++ (new' ++ gap')) ++ after) =
      if new ≠ [] ∧ part.head? = some '*' then none
      else read? (before ++ (gap ++ part ++ gap') ++ after) := by
  obtain ⟨f, hf⟩ := h.exists_bind
  have closed {g g' : List Char} (hg : Blanks g) (hg' : Blanks g') :
      Closed false (g ++ part ++ g') :=
    ((closed_of_blanks hg).append hpart).append (closed_of_blanks hg')
  have hwith := hgap.append hnew
  have hwith' := hnew'.append hgap'
  rw [hf _ (closed hwith hwith'), hf _ (closed hgap hgap'), read?_append_blanks hwith',
    read?_append_blanks hgap', read?_blanks_append hwith, read?_blanks_append hgap]
  by_cases hstar : part.head? = some '*'
  · by_cases hnil : new = []
    · simp [hnil]
    · simp [hnil, hstar]
  · simp [hstar]

/-- The second text is the first with blanks put in around components. The mark between them
tells whether some came in front of a star. -/
inductive Spaced (cs : List Char) : Bool → List Char → Prop
  | same : Spaced cs false cs
  /-- Blanks are put in around one more component, inside the blanks around it. -/
  | around {lost : Bool} {before after part gap gap' new new' : List Char}
      (h : Spaced cs lost (before ++ (gap ++ part ++ gap') ++ after))
      (hplace : Surrounds before after) (hpart : Closed false part) (hgap : Blanks gap)
      (hgap' : Blanks gap') (hnew : Blanks new) (hnew' : Blanks new') :
      Spaced cs (lost || (!new.isEmpty && part.head? == some '*'))
        (before ++ (gap ++ new ++ part ++ (new' ++ gap')) ++ after)

theorem Spaced.read?_eq {cs cs' : List Char} {lost : Bool} (h : Spaced cs lost cs') :
    read? cs' = if lost then none else read? cs := by
  induction h with
  | same => rfl
  | @around lost before after part gap gap' new new' _ hplace hpart hgap hgap' hnew hnew' ih =>
    rw [hplace.read?_spaced hpart hgap hgap' hnew hnew', ih]
    cases lost <;> simp

/-! ## 3. Components that are found -/

theorem Surrounds.stars {stars : List Char} (hstars : ∀ c ∈ stars, c = '*')
    (h : Surrounds before after) : Surrounds (stars ++ before) after := by
  induction stars with
  | nil => exact h
  | cons c stars ih =>
    rw [List.forall_mem_cons] at hstars
    obtain ⟨rfl, hstars⟩ := hstars
    exact .star (ih hstars)

theorem Shaped.exists_surrounds {cs : List Char} {s : Shape} (h : Shaped cs s)
    (hclosed : ∀ p ∈ s.parts, Closed false p) (hpart : part ∈ s.parts) :
    ∃ before after, cs = before ++ part ++ after ∧ Surrounds before after := by
  cases h with
  | named => cases hpart
  | slice =>
    obtain rfl := List.mem_singleton.1 hpart
    exact ⟨_, _, by simp, .slice⟩
  | array h =>
    obtain rfl := List.mem_singleton.1 hpart
    exact ⟨_, _, by simp, .array h⟩
  | map key value =>
    simp only [Shape.parts, List.forall_mem_cons] at hclosed
    simp only [Shape.parts, List.mem_cons, List.not_mem_nil, or_false] at hpart
    rcases hpart with rfl | rfl
    · exact ⟨_, _, by simp, .key hclosed.2.1⟩
    · exact ⟨_, _, by simp, .value hclosed.1⟩
  | tuple =>
    obtain ⟨items, items', rfl⟩ := List.append_of_mem hpart
    simp only [Shape.parts, List.forall_mem_append, List.forall_mem_cons] at hclosed
    rw [intercalate_around]
    exact ⟨_, _, by simp, .item hclosed.1 hclosed.2.2⟩

/-- Every part that a spelling is read by stands in it as a component, and is read itself. -/
theorem exists_surrounds {cs : List Char} {s : Shape} (h : (read? cs).isSome)
    (hs : shape? (unwrapped cs) = some s) (hpart : part ∈ s.parts) :
    ∃ before after, cs = before ++ part ++ after ∧ Surrounds before after ∧
      (read? part).isSome := by
  have hparts : ∀ p ∈ s.parts, (read? p).isSome := by
    rw [read?_eq, Option.isSome_map, hs, Option.bind_some] at h
    exact isSome_read?_part h
  obtain ⟨before, after, heq, hplace⟩ := (shaped_of_shape? hs).exists_surrounds
    (fun p hp => closed_of_read? (hparts p hp)) hpart
  obtain ⟨stars, gap, gap', hstars, hgap, hgap', hcs⟩ := exists_unwrapped cs
  refine ⟨_, _, ?_, (hplace.blanks hgap hgap').stars hstars, hparts part hpart⟩
  rw [hcs, heq]
  simp

/-! ## 4. Spellings -/

/-- The components of a spelling that is read stand in it, each in its place, and so do theirs
in them. Blanks may be put in around any number of components, at any depth: if none of them
comes in front of a star, the spelling is read as before, and else it is not read at all. -/
theorem ofSpelling?_spaced (s : String) :
    (∀ shape part, (ofSpelling? s).isSome → shape? (unwrapped s.toList) = some shape →
      part ∈ shape.parts → ∃ before after, s.toList = before ++ part ++ after ∧
        Surrounds before after ∧ Closed false part ∧ (read? part).isSome) ∧
    ∀ lost s', Spaced s.toList lost s'.toList →
      ofSpelling? s' = if lost then none else ofSpelling? s := by
  refine ⟨fun shape part h hs hpart => ?_, fun lost s' h => h.read?_eq⟩
  obtain ⟨before, after, heq, hplace, hread⟩ := exists_surrounds h hs hpart
  exact ⟨before, after, heq, hplace, closed_of_read? hread, hread⟩

/-- Blanks around an item of a tuple that is itself the value of a map. -/
theorem ofSpelling?_spaced_item :
    let t := mapOf str (tupleOf [number .i32, bool.pointerTo])
    ofSpelling? "[str:(i32,*bool)]" = some t ∧ ofSpelling? "[str:( i32\t,*bool)]" = some t := by
  intro t
  have hreadable : Readable t := .map .str (.tuple (by simp) (by
    simpa using ⟨.number .i32, .pointers .bool 1⟩))
  have hread : ofSpelling? "[str:(i32,*bool)]" = some t := hreadable.read?_spelling
  have hkey : Closed false "str".toList := (Balanced.of_plain (by decide)).closed
  have hitem : ∀ p ∈ ["*bool".toList], Closed false p :=
    List.forall_mem_singleton.2 (Balanced.of_plain (by decide)).closed
  have hplace : Surrounds "[str:(".toList ",*bool)]".toList :=
    .within (.value hkey) (@Surrounds.item [] ["*bool".toList] (by simp) hitem)
  have hpart : Closed false "i32".toList := (Balanced.of_plain (by decide)).closed
  have hspaced : Spaced "[str:(i32,*bool)]".toList false "[str:( i32\t,*bool)]".toList :=
    @Spaced.around _ _ _ _ _ [] [] [' '] ['\t'] .same hplace hpart (by decide) (by decide)
      (by decide) (by decide)
  have heq := (ofSpelling?_spaced "[str:(i32,*bool)]").2 false _ hspaced
  exact ⟨hread, heq.trans hread⟩

/-- A blank in front of the star of a value. -/
theorem ofSpelling?_blank_star :
    ofSpelling? "[str:*i32]" = some (mapOf str (number .i32).pointerTo) ∧
      ofSpelling? "[str: *i32]" = none := by
  have hreadable : Readable (mapOf str (number .i32).pointerTo) :=
    .map .str (.pointers (.number .i32) 1)
  have hplace : Surrounds "[str:".toList "]".toList :=
    @Surrounds.value "str".toList (Balanced.of_plain (by decide)).closed
  have hpart : Closed false "*i32".toList := (Balanced.of_plain (by decide)).closed
  have hspaced : Spaced "[str:*i32]".toList true "[str: *i32]".toList :=
    @Spaced.around _ _ _ _ _ [] [] [' '] [] .same hplace hpart (by decide) (by decide)
      (by decide) (by decide)
  exact ⟨hreadable.read?_spelling, hspaced.read?_eq⟩

end ExprCheck.Ty
