/-
ExprCheck.Proofs.Functions — what the spelling of a function tells.

Two functions look alike when they are spelled alike, and a function is spelled by its
parameters in brackets with its result after them. The brackets are found again, because every
bracket that a parameter puts between them closes (`splitClose_append`), and so are the
parameters, because they are joined by commas that stand outside all other brackets
(`intercalate_inj`). So functions that look alike have the parameters of each other.

The result is another matter. It is left out where its category is `void`, and the category of
a pointer is that of what the pointer leads to: a function that returns `*void` is spelled as
one that returns nothing (`looksLike_funcOf_void_pointer`). Where neither result is left out,
they are spelled alike too (`looksLike_funcOf_iff`).
-/
import ExprCheck.Proofs.RoundTrip
import ExprCheck.Ty.Compatible

namespace ExprCheck

namespace Ty

/-! ## 1. What stands after the parameters -/

/-- The result of a function as the name of the function has it. -/
def resultText (result : Ty) : String :=
  if result.category = .void then "" else result.spelling

theorem toList_spelling_funcOf (signature : Signature Ty) :
    (funcOf signature).spelling.toList =
      '(' :: ([','].intercalate (signature.params.map (·.type.spelling.toList)) ++
        ')' :: signature.result.resultText.toList) := by
  by_cases hvoid : signature.result.category = .void <;>
    simp [toList_spelling, funcOf, rename, derivedName?, simple, spellings, resultText, hvoid,
      String.toList_intercalate, Function.comp_def]

theorem Builtin.spelling_ne_nil {t : Ty} (h : Builtin t) : t.spelling.toList ≠ [] := by
  induction h with
  | number kind => cases kind <;> decide
  | bool | str | nil | any | void => decide
  | slice => simp [toList_spelling_sliceOf]
  | array => simp [toList_spelling_arrayOf]
  | map => simp [toList_spelling_mapOf]
  | tuple => simp [toList_spelling_tupleOf]
  | pointers _ count ih => simp [toList_spelling_addPointers, ih]

/-- Nothing stands after the parameters only where the result is left out. -/
theorem Builtin.resultText_inj {t u : Ty} (ht : Builtin t) (hu : Builtin u) :
    t.resultText = u.resultText ↔
      (t.category = .void ∧ u.category = .void) ∨
        (t.category ≠ .void ∧ u.category ≠ .void ∧ t.spelling = u.spelling) := by
  have empty {v : Ty} (hv : Builtin v) : v.spelling ≠ "" := by
    intro hspelling
    exact hv.spelling_ne_nil (by rw [hspelling]; rfl)
  by_cases htv : t.category = .void <;> by_cases huv : u.category = .void
  · simp [resultText, htv, huv]
  · simpa [resultText, htv, huv] using (empty hu).symm
  · simpa [resultText, htv, huv] using empty ht
  · simp [resultText, htv, huv]

end Ty

/-! ## 2. Functions that look alike -/

/-- A function of types that need no declaration. -/
structure Signature.Builtin (signature : Signature Ty) : Prop where
  params : ∀ p ∈ signature.params, Ty.Builtin p.type
  result : Ty.Builtin signature.result

namespace Ty

variable {f g : Signature Ty}

/-- The parameters of functions that are spelled alike are spelled alike, one by one, and there
are as many of them. -/
theorem params_of_spelling_funcOf (hf : f.Builtin) (hg : g.Builtin)
    (h : (funcOf f).spelling = (funcOf g).spelling) :
    f.params.map (·.type.spelling) = g.params.map (·.type.spelling) ∧
      f.result.resultText = g.result.resultText := by
  have parts {s : Signature Ty} (hs : s.Builtin) :
      ∀ p ∈ s.params.map (·.type.spelling.toList), Closed false p ∧ p ≠ [] := by
    intro p hp
    obtain ⟨param, hparam, rfl⟩ := List.mem_map.1 hp
    have hparam := hs.params param hparam
    exact ⟨hparam.balanced.closed, hparam.spelling_ne_nil⟩
  have inner {s : Signature Ty} (hs : s.Builtin) :
      Closed true ([','].intercalate (s.params.map (·.type.spelling.toList))) :=
    .intercalate (.inr rfl) fun p hp => (parts hs p hp).1
  -- the first bracket is closed after the last parameter, in either spelling
  have hclose := congrArg (splitClose '(' ')' 0 ·.toList.tail) h
  simp only [toList_spelling_funcOf, List.tail_cons,
    splitClose_append (.inr ⟨rfl, rfl⟩) (inner hf),
    splitClose_append (.inr ⟨rfl, rfl⟩) (inner hg)] at hclose
  obtain ⟨hparams, hresult⟩ := Prod.mk.inj (Option.some.inj hclose)
  have hlists := intercalate_inj (.inr rfl) (parts hf) (parts hg) hparams
  refine ⟨?_, String.toList_inj.1 hresult⟩
  have hstrings := congrArg (List.map String.ofList) hlists
  simpa [Function.comp_def] using hstrings

theorem spelling_funcOf_congr
    (hparams : f.params.map (·.type.spelling) = g.params.map (·.type.spelling))
    (hresult : f.result.resultText = g.result.resultText) :
    (funcOf f).spelling = (funcOf g).spelling := by
  have hlists := congrArg (List.map String.toList) hparams
  rw [List.map_map, List.map_map] at hlists
  refine String.toList_inj.1 ?_
  rw [toList_spelling_funcOf, toList_spelling_funcOf, hresult]
  exact congrArg (fun ps => '(' :: ([','].intercalate ps ++ ')' :: _)) hlists

/-- Functions look alike that have the same parameters, as they are spelled, and the same
result, or results that lead to `void` both. -/
theorem looksLike_funcOf_iff (hf : f.Builtin) (hg : g.Builtin) :
    (funcOf f).looksLike (funcOf g) ↔
      f.params.map (·.type.spelling) = g.params.map (·.type.spelling) ∧
        ((f.result.category = .void ∧ g.result.category = .void) ∨
          (f.result.category ≠ .void ∧ g.result.category ≠ .void ∧
            f.result.spelling = g.result.spelling)) := by
  have hcategory : (funcOf f).category = (funcOf g).category := rfl
  rw [← hf.result.resultText_inj hg.result, looksLike, decide_eq_true_iff]
  constructor
  · rintro ⟨-, hspelling⟩
    exact params_of_spelling_funcOf hf hg hspelling
  · rintro ⟨hparams, hresult⟩
    exact ⟨hcategory, spelling_funcOf_congr hparams hresult⟩

/-- One parameter that is a pair is not taken for two. -/
theorem looksLike_funcOf_pair :
    let split : Signature Ty := ⟨"f", [⟨"a", number .i32⟩, ⟨"b", str⟩], nil, []⟩
    let whole : Signature Ty := ⟨"f", [⟨"p", tupleOf [number .i32, str]⟩], nil, []⟩
    split.Builtin ∧ whole.Builtin ∧ (funcOf split).looksLike (funcOf whole) = false := by
  intro split whole
  have hpair : ∀ c ∈ [number .i32, str], Builtin c := by
    simpa using ⟨Builtin.number .i32, Builtin.str⟩
  have hsplit : split.Builtin := ⟨by simpa [split] using ⟨.number .i32, .str⟩, .nil⟩
  have hwhole : whole.Builtin := ⟨by simpa [whole] using .tuple hpair, .nil⟩
  have hparams : split.params.map (·.type.spelling) ≠ whole.params.map (·.type.spelling) := by
    decide
  refine ⟨hsplit, hwhole, ?_⟩
  rw [Bool.eq_false_iff, ne_eq, looksLike_funcOf_iff hsplit hwhole]
  exact fun h => hparams h.1

/-- A pointer to nothing is left out as nothing is, so a function that returns one looks like a
function that does not. -/
theorem looksLike_funcOf_void_pointer :
    let pointing : Signature Ty := ⟨"f", [], void.pointerTo, []⟩
    let plain : Signature Ty := ⟨"f", [], void, []⟩
    pointing.Builtin ∧ plain.Builtin ∧ (funcOf pointing).looksLike (funcOf plain) ∧
      pointing.result.spelling ≠ plain.result.spelling := by
  intro pointing plain
  have hpointing : pointing.Builtin := ⟨by simp [pointing], .pointers .void 1⟩
  have hplain : plain.Builtin := ⟨by simp [plain], .void⟩
  exact ⟨hpointing, hplain, by decide, by decide⟩

-- one array whose size is a string with brackets in it, and two whose sizes are strings
example :
    let array (size : String) : Parameter Ty :=
      ⟨"a", arrayOf (number .i32) (.deferred [.synthetic .string size])⟩
    (funcOf ⟨"f", [array "x\"]i32,[\"y"], void, []⟩).looksLike
      (funcOf ⟨"f", [array "x", array "y"], void, []⟩) := by
  decide

end Ty

end ExprCheck
