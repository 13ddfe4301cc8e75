import CrudUi.Json
import CrudUi.Ui.Entity

/-!
# Writing UI schemas

A UI schema is written as a JSON value.  Of a field the format, the two flags and the allowed
values are left out where they are not set, and of an endpoint the operation's name; a missing
primary key is `null`.
-/

namespace CrudUi

/-- A member that is left out where there is no value. -/
def optionalMember (name : String) (value : Option Json) : List (String × Json) :=
  match value with
  | some value => [(name, value)]
  | none => []

/-- Writes a field. -/
def Field.toJson (field : Field) : Json :=
  .object ([("name", .string field.name), ("label", .string field.label),
      ("type", .string field.type.name)] ++
    optionalMember "format" (field.format.map .string) ++
    [("required", .bool field.required)] ++
    optionalMember "readOnly" (field.readOnly.map .bool) ++
    optionalMember "writeOnly" (field.writeOnly.map .bool) ++
    optionalMember "enum" (field.enumValues.map .ofStrings))

/-- Writes an endpoint. -/
def Endpoint.toJson (endpoint : Endpoint) : Json :=
  .object ([("method", .string endpoint.method), ("path", .string endpoint.path)] ++
    optionalMember "operationId" (endpoint.operationId.map .string))

/-- Writes the endpoints of an entity. -/
def Endpoints.toJson (endpoints : Endpoints) : Json :=
  .object (endpoints.toList.map fun entry => (entry.1.name, entry.2.toJson))

/-- Writes the views of an entity. -/
def Views.toJson (views : Views) : Json :=
  .object [("list", .object [("columns", .ofStrings views.columns)]),
    ("detail", .object [("fields", .ofStrings views.detail)]),
    ("form", .object [("fields", .ofStrings views.form)])]

/-- Writes an optional text, `null` where there is none. -/
def Json.ofString? (text : Option String) : Json :=
  match text with
  | some text => .string text
  | none => .null

/-- Writes an entity. -/
def Entity.toJson (entity : Entity) : Json :=
  .object [("id", .string entity.id), ("title", .string entity.title),
    ("resourcePath", .string entity.resourcePath),
    ("primaryKey", .ofString? entity.primaryKey),
    ("fields", .array (entity.fields.map Field.toJson)),
    ("endpoints", entity.endpoints.toJson), ("views", entity.views.toJson)]

/-- Writes a UI schema. -/
def UiSchema.toJson (ui : UiSchema) : Json :=
  .object [("version", .ofNat ui.version),
    ("entities", .object (ui.entities.map fun entry => (entry.1, entry.2.toJson)))]

end CrudUi
