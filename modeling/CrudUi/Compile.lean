import CrudUi.Inference.Fields
import CrudUi.Inference.Views
import CrudUi.Walk.Draft

/-!
# From a document to a UI schema

`Document.compile` turns every draft of an entity into the entity: its fields, its primary key and
its views.  A document must be marked as one of version 3, and nothing else in it is an error.  But
the items of a list may lead back to the list without end, and then there is neither a UI schema nor
an error: the program descends into the list until it is gone.
-/

namespace CrudUi

/-- Why a computation has no result.  An error can be told, counted or passed over; after a
computation without end nothing else happens. -/
inductive NoResult (ε : Type) where
  | error (error : ε)
  /-- The computation has no end. -/
  | endless
  deriving DecidableEq, Repr

/-- The same with the error as another one. -/
def NoResult.map {ε ε' : Type} (f : ε → ε') : NoResult ε → NoResult ε'
  | .error reason => .error (f reason)
  | .endless => .endless

/-- A reason for which a document cannot be compiled. -/
inductive CompileError where
  | missingVersion
  | unsupportedVersion (found : String)
  deriving DecidableEq, Repr

/-- What is wrong with the version of a document. -/
def CompileError.reason : CompileError → String
  | .missingVersion => "missing 'openapi' version marker"
  | .unsupportedVersion found =>
    "expected an OpenAPI 3.x document, found version '" ++ found ++ "'"

namespace Document

/-- Checks the version marker, which must start with `3.`. -/
def checkVersion (document : Document) : Except CompileError Unit :=
  match document.version? with
  | some version =>
    if ['3', '.'].isPrefixOf version.toList then .ok () else .error (.unsupportedVersion version)
  | none => .error .missingVersion

end Document

namespace Draft

/-- The fields of the first payload that has any. -/
def candidateFields? (components : Components) : List Schema → Option (List Field)
  | [] => some []
  | schema :: rest => do
    let fields ← components.fields? schema
    if fields.isEmpty then candidateFields? components rest else return fields

/-- The fields of an entity: those of the named component, if there are any, else those of the
first payload that has any. -/
def fields? (draft : Draft) (components : Components) : Option (List Field) := do
  let named ← match draft.schemaName with
    | some name => components.namedFields? name
    | none => some []
  if named.isEmpty then candidateFields? components draft.candidates else return named

/-- The entity of a draft. -/
def build (draft : Draft) (components : Components) : Except (NoResult CompileError) Entity :=
  match draft.fields? components with
  | none => .error .endless
  | some fields =>
    let primaryKey := inferPrimaryKey fields
    .ok {
      id := draft.id
      title := Naming.humanize draft.id
      resourcePath := draft.resourcePath
      primaryKey
      fields
      endpoints := draft.endpoints
      views := buildViews fields primaryKey }

end Draft

/-- Compiles a document. -/
def Document.compile (document : Document) : Except (NoResult CompileError) UiSchema := do
  document.checkVersion.mapError .error
  let entities ← document.drafts.mapM fun entry => do
    return (entry.1, ← entry.2.build document.components)
  return { entities }

end CrudUi
