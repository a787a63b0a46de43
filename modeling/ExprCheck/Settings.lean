/-
ExprCheck.Settings — what a user may set, and the document it is read from.

The document is an object with the two settings as members, or an array of their
values in order. What is left out takes its default. Members of other names are
passed over; a setting that comes twice, or is not of its type, makes the document
invalid.
-/
import ExprCheck.Settings.Document

namespace ExprCheck

/-- What a user may set. -/
structure Settings where
  /-- Operators on known values yield known values. -/
  foldConstants : Bool
  /-- The name that names nothing, in a list of results. -/
  ignoreIdentifier : String
  deriving DecidableEq, Repr

namespace Settings

def default : Settings := ⟨true, "_"⟩

instance : Inhabited Settings := ⟨default⟩

/-- The settings that a document has so far. -/
structure Draft where
  foldConstants : Option Bool
  ignoreIdentifier : Option String

/-- Adds a member of an object. -/
def Draft.add? (d : Draft) : Option String × Document → Option Draft
  | (none, _) => none
  | (some name, value) =>
    if name = "fold_constants" then
      match d.foldConstants, value with
      | none, .bool b => some { d with foldConstants := some b }
      | _, _ => none
    else if name = "ignore_identifier" then
      match d.ignoreIdentifier, value with
      | none, .string (some text) => some { d with ignoreIdentifier := some text }
      | _, _ => none
    else some d

/-- Defaults for what is left out. -/
def Draft.complete (d : Draft) : Settings :=
  ⟨d.foldConstants.getD default.foldConstants, d.ignoreIdentifier.getD default.ignoreIdentifier⟩

/-- The settings that a document holds. -/
def ofDocument? : Document → Option Settings
  | .object members => (members.foldlM Draft.add? ⟨none, none⟩).map Draft.complete
  | .array [] => some default
  | .array [.bool fold] => some { default with foldConstants := fold }
  | .array [.bool fold, .string (some ignore)] => some ⟨fold, ignore⟩
  | _ => none

/-- The settings that the bytes of a document hold. -/
def read? (bytes : List UInt8) : Option Settings := (Document.read? bytes).bind ofDocument?

end Settings

end ExprCheck
