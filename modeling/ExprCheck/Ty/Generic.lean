/-
ExprCheck.Ty.Generic — putting types for placeholders.

`instantiate` always starts from the form that a type had before any arguments
were put in, so a type can be instantiated again with others; that form is kept
as the origin of the result whenever something was replaced.
-/
import ExprCheck.Ty.Spelling

namespace ExprCheck.Ty

/-! ## 1. Placeholders -/

mutual

/-- A placeholder occurs in the type. Fields of structs and items of enums belong
to their declarations and do not count. -/
def hasGenerics : Ty → Bool
  | ⟨category, _, _, element, payload, _, _, _⟩ =>
    category == .generic || optionHasGenerics element || payloadHasGenerics payload
termination_by structural t => t

def optionHasGenerics : Option Ty → Bool
  | none => false
  | some t => t.hasGenerics
termination_by structural t => t

def payloadHasGenerics : Payload Ty → Bool
  | .none | .trait _ | .enum _ => false
  | .map key value => key.hasGenerics || value.hasGenerics
  | .struct _ args => listHasGenerics args
  | .func signature => signatureHasGenerics signature
  | .tuple components => listHasGenerics components
termination_by structural p => p

def signatureHasGenerics : Signature Ty → Bool
  | ⟨_, params, result, _⟩ => paramsHaveGenerics params || result.hasGenerics
termination_by structural s => s

def paramsHaveGenerics : List (Parameter Ty) → Bool
  | [] => false
  | p :: ps => paramHasGenerics p || paramsHaveGenerics ps
termination_by structural ps => ps

def paramHasGenerics : Parameter Ty → Bool
  | ⟨_, type⟩ => type.hasGenerics
termination_by structural p => p

def listHasGenerics : List Ty → Bool
  | [] => false
  | t :: ts => t.hasGenerics || listHasGenerics ts
termination_by structural ts => ts

end

theorem optionHasGenerics_eq_any (t : Option Ty) : optionHasGenerics t = t.any hasGenerics := by
  cases t <;> rfl

theorem listHasGenerics_eq_any (ts : List Ty) : listHasGenerics ts = ts.any hasGenerics := by
  induction ts with
  | nil => rfl
  | cons t ts ih => simp [listHasGenerics, ih]

theorem paramsHaveGenerics_eq_any (ps : List (Parameter Ty)) :
    paramsHaveGenerics ps = ps.any (·.type.hasGenerics) := by
  induction ps with
  | nil => rfl
  | cons p ps ih =>
    obtain ⟨name, type⟩ := p
    simp [paramsHaveGenerics, paramHasGenerics, ih]

/-- No placeholder is left in the type. -/
def isResolved (t : Ty) : Bool := !t.hasGenerics

/-- The type is a placeholder of one of these names. -/
def isGenericOf (t : Ty) (params : List String) : Bool :=
  t.category == .generic && params.contains t.name

/-! ## 2. Substitution -/

/-- What is put for the placeholder `name`: the argument at the place of the first
parameter of that name. -/
def argument? (params : List String) (args : List Ty) (name : String) : Option Ty :=
  (params.idxOf? name).bind (args[·]?)

/-- What becomes of a placeholder: its argument, with the pointers of both and the
placeholder as its origin. -/
def substitutePlaceholder (params : List String) (args : List Ty) (t : Ty) : Ty :=
  match argument? params args t.name with
  | some arg => { arg.addPointers t.pointers with origin := some t }
  | none => t

mutual

/-- Puts arguments for the placeholders in a type, and names its parts anew. -/
def substitute (params : List String) (args : List Ty) : Ty → Ty
  | ⟨category, name, pointers, element, payload, size, origin, isPlaceholder⟩ =>
    if category = .generic then
      substitutePlaceholder params args
        ⟨category, name, pointers, element, payload, size, origin, isPlaceholder⟩
    else
      rename
        ⟨category, name, pointers, substituteOption params args element,
          substitutePayload params args payload, size, origin, isPlaceholder⟩
termination_by structural t => t

def substituteOption (params : List String) (args : List Ty) : Option Ty → Option Ty
  | none => none
  | some t => some (t.substitute params args)
termination_by structural t => t

def substitutePayload (params : List String) (args : List Ty) : Payload Ty → Payload Ty
  | .none => .none
  | .map key value => .map (key.substitute params args) (value.substitute params args)
  | .struct decl targets => .struct decl (substituteList params args targets)
  | .trait decl => .trait decl
  | .enum decl => .enum decl
  | .func signature => .func (substituteSignature params args signature)
  | .tuple components => .tuple (substituteList params args components)
termination_by structural p => p

def substituteSignature (params : List String) (args : List Ty) : Signature Ty → Signature Ty
  | ⟨name, targets, result, results⟩ =>
    ⟨name, substituteParams params args targets, result.substitute params args, results⟩
termination_by structural s => s

def substituteParams (params : List String) (args : List Ty) :
    List (Parameter Ty) → List (Parameter Ty)
  | [] => []
  | p :: ps => substituteParam params args p :: substituteParams params args ps
termination_by structural ps => ps

def substituteParam (params : List String) (args : List Ty) : Parameter Ty → Parameter Ty
  | ⟨name, type⟩ => ⟨name, type.substitute params args⟩
termination_by structural p => p

def substituteList (params : List String) (args : List Ty) : List Ty → List Ty
  | [] => []
  | t :: ts => t.substitute params args :: substituteList params args ts
termination_by structural ts => ts

end

theorem substituteOption_eq_map (params : List String) (args : List Ty) (t : Option Ty) :
    substituteOption params args t = t.map (substitute params args) := by
  cases t <;> rfl

theorem substituteList_eq_map (params : List String) (args ts : List Ty) :
    substituteList params args ts = ts.map (substitute params args) := by
  induction ts with
  | nil => rfl
  | cons t ts ih => simp [substituteList, ih]

theorem substituteParams_eq_map (params : List String) (args : List Ty)
    (ps : List (Parameter Ty)) :
    substituteParams params args ps =
      ps.map fun p => { p with type := p.type.substitute params args } := by
  induction ps with
  | nil => rfl
  | cons p ps ih =>
    obtain ⟨name, type⟩ := p
    simp [substituteParams, substituteParam, ih]

/-! ## 3. Instances -/

/-- The form before any arguments were put in. -/
def restoreOrigin (t : Ty) : Ty := t.origin.getD t

/-- The type with arguments for the placeholders named in `params`. -/
def instantiate (t : Ty) (params : List String) (args : List Ty) : Ty :=
  let template := t.restoreOrigin
  let instanced := template.substitute params args
  if template.hasGenerics ∧ instanced ≠ template then { instanced with origin := some template }
  else instanced

/-- An instance is the form before with the arguments put in. It may have that form as its
origin. -/
theorem instantiate_eq_or (t : Ty) (params : List String) (args : List Ty) :
    t.instantiate params args = t.restoreOrigin.substitute params args ∨
      t.instantiate params args =
        { t.restoreOrigin.substitute params args with origin := some t.restoreOrigin } := by
  unfold instantiate
  dsimp only
  split
  · exact .inr rfl
  · exact .inl rfl

end ExprCheck.Ty
