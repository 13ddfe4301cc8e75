import CrudUi.Json
import CrudUi.Ui.Entity

/-!
# Validation of records

A record is checked field by field.  `null` counts as absent, a field that the server sets is never
demanded, and the primary key may always be a text, since rows are addressed by texts.
-/

namespace CrudUi

/-- Something wrong with a field of a record. -/
inductive Problem where
  | missing (field : String)
  | wrongType (field : String) (expected : FieldType)
  | notAllowed (field : String) (allowed : List String)
  deriving DecidableEq, Repr

/-- The wording of a problem. -/
def Problem.message : Problem → String
  | .missing field => "'" ++ field ++ "' is required"
  | .wrongType field expected => "'" ++ field ++ "' must be of type " ++ expected.name
  | .notAllowed field allowed =>
    "'" ++ field ++ "' must be one of [" ++ String.intercalate ", " allowed ++ "]"

/-- Whether a value is of a kind. -/
def FieldType.accepts : FieldType → Json → Bool
  | .string, .string _ => true
  | .number, .number _ => true
  | .integer, .number (.int _) => true
  | .boolean, .bool _ => true
  | .array, .array _ => true
  | .object, .object _ => true
  | .unknown, _ => true
  | _, _ => false

/-- The value of a field, if it is there and not null. -/
def Record.value? (record : Record) (name : String) : Option Json :=
  (Entries.lookup name record).filter (!·.isNull)

namespace Entity

/-- Whether a field is the primary key. -/
def isKey (entity : Entity) (field : Field) : Bool :=
  entity.primaryKey = some field.name

/-- What is wrong with the value of a field. -/
def valueProblem? (entity : Entity) (field : Field) (value : Json) : Option Problem :=
  if !field.type.accepts value && !(entity.isKey field && value.isString) then
    some (.wrongType field.name field.type)
  else
    match field.enumValues, value with
    | some allowed, .string text =>
      if text ∈ allowed then none else some (.notAllowed field.name allowed)
    | _, _ => none

/-- What is wrong with a field of a record. -/
def fieldProblem? (entity : Entity) (record : Record) (field : Field) : Option Problem :=
  match record.value? field.name with
  | some value => entity.valueProblem? field value
  | none => if field.required && !field.isReadOnly then some (.missing field.name) else none

/-- Everything that is wrong with a record, in the order of the fields. -/
def problems (entity : Entity) (record : Record) : List Problem :=
  entity.fields.filterMap (entity.fieldProblem? record)

end Entity

end CrudUi
