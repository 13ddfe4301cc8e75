/-!
# Fields

A field is one property of an entity as a user interface sees it.
-/

namespace CrudUi

/-- The kind of value that a field holds. -/
inductive FieldType where
  | string
  | number
  | integer
  | boolean
  | array
  | object
  | unknown
  deriving DecidableEq, Repr

namespace FieldType

/-- Every kind, in its declared order. -/
def all : List FieldType :=
  [.string, .number, .integer, .boolean, .array, .object, .unknown]

/-- The name of a kind. -/
def name : FieldType → String
  | .string => "string"
  | .number => "number"
  | .integer => "integer"
  | .boolean => "boolean"
  | .array => "array"
  | .object => "object"
  | .unknown => "unknown"

/-- The kind of a name. -/
def ofName? (name : String) : Option FieldType :=
  all.find? fun type => type.name = name

/-- The kind that the `type` keyword names, for scalars and lists. -/
def ofKeyword? : String → Option FieldType
  | "string" => some .string
  | "number" => some .number
  | "integer" => some .integer
  | "boolean" => some .boolean
  | "array" => some .array
  | _ => none

/-- Objects and lists do not fit a cell of a table. -/
def isComposite : FieldType → Bool
  | .object | .array => true
  | _ => false

theorem ofName?_name (type : FieldType) : ofName? type.name = some type := by
  cases type <;> decide

end FieldType

/-- A property of an entity. -/
structure Field where
  name : String
  label : String
  type : FieldType
  format : Option String := none
  required : Bool
  readOnly : Option Bool := none
  writeOnly : Option Bool := none
  /-- The allowed values. -/
  enumValues : Option (List String) := none
  deriving DecidableEq, Repr

namespace Field

/-- Whether the server alone sets the value. -/
def isReadOnly (field : Field) : Bool :=
  field.readOnly = some true

/-- Whether the value is never shown. -/
def isWriteOnly (field : Field) : Bool :=
  field.writeOnly = some true

end Field

end CrudUi
