import CrudUi.Decode
import CrudUi.Ui.Entity

/-!
# Reading UI schemas

The reading of what `CrudUi.Ui.Writing` writes.  Members may come in any order, others are passed
over, and every record may also be given as a list of its fields.
-/

namespace CrudUi

/-- Reads the name of a kind of value.  An object with the name as its only member and `null` under
it stands for the name as well. -/
def FieldType.ofJson (value : Json) : Decoded FieldType :=
  let named (name : String) : Decoded FieldType :=
    match ofName? name with
    | some type => .ok type
    | none => .error (.unknownVariant name (all.map FieldType.name))
  match value with
  | .string name => named name
  | .object [(name, value)] => do
    let type ← named name
    if value.isNull then return type else throw (value.mismatch "unit")
  | .object _ => .error (.invalidValue .map "map with a single key")
  | value => .error (value.mismatch "string or map")

namespace Field

/-- The fields of a field. -/
def shape : Shape :=
  ⟨"UiField", [("name", .required), ("label", .required), ("type", .required),
    ("format", .defaulted), ("required", .required), ("readOnly", .defaulted),
    ("writeOnly", .defaulted), ("enum", .defaulted)]⟩

/-- Reads a field. -/
def ofJson : Json → Decoded Field :=
  Json.source.readRecord shape ⟨"", "", .unknown, none, false, none, none, none⟩
    fun field key value => match key with
    | "name" => return { field with name := ← value.readString }
    | "label" => return { field with label := ← value.readString }
    | "type" => return { field with type := ← FieldType.ofJson value }
    | "format" => return { field with format := ← value.readOptional Json.readString }
    | "required" => return { field with required := ← value.readBool }
    | "readOnly" => return { field with readOnly := ← value.readOptional Json.readBool }
    | "writeOnly" => return { field with writeOnly := ← value.readOptional Json.readBool }
    | "enum" => return { field with
        enumValues := ← value.readOptional (Json.readList Json.readString) }
    | _ => return field

end Field

namespace Endpoint

/-- The fields of an endpoint. -/
def shape : Shape :=
  ⟨"UiEndpoint", [("method", .required), ("path", .required), ("operationId", .defaulted)]⟩

/-- Reads an endpoint. -/
def ofJson : Json → Decoded Endpoint :=
  Json.source.readRecord shape ⟨"", "", none⟩ fun endpoint key value => match key with
    | "method" => return { endpoint with method := ← value.readString }
    | "path" => return { endpoint with path := ← value.readString }
    | "operationId" => return { endpoint with
        operationId := ← value.readOptional Json.readString }
    | _ => return endpoint

end Endpoint

/-- Reads a table of endpoints by the names of their actions. -/
def Endpoints.ofEntries : List (String × Json) → Endpoints → Decoded Endpoints
  | [], endpoints => .ok endpoints
  | (name, value) :: rest, endpoints =>
    match Action.ofName? name with
    | some action => do ofEntries rest (endpoints.set action (← Endpoint.ofJson value))
    | none => .error (.unknownVariant name (Action.all.map Action.name))

/-- Reads the endpoints of an entity. -/
def Endpoints.ofJson : Json → Decoded Endpoints
  | .object entries => ofEntries entries {}
  | value => .error (value.mismatch "a map")

namespace Views

/-- Reads a view that consists of one list of names. -/
def namesOfJson (kind member : String) : Json → Decoded (List String) :=
  Json.source.readRecord ⟨kind, [(member, .required)]⟩ [] fun names key value =>
    if key = member then value.readList Json.readString else return names

/-- The fields of the views. -/
def shape : Shape :=
  ⟨"UiViews", [("list", .required), ("detail", .required), ("form", .required)]⟩

/-- Reads the views of an entity. -/
def ofJson : Json → Decoded Views :=
  Json.source.readRecord shape {} fun views key value => match key with
    | "list" => return { views with columns := ← namesOfJson "ListView" "columns" value }
    | "detail" => return { views with detail := ← namesOfJson "FieldsView" "fields" value }
    | "form" => return { views with form := ← namesOfJson "FieldsView" "fields" value }
    | _ => return views

end Views

namespace Entity

/-- The fields of an entity. -/
def shape : Shape :=
  ⟨"UiEntitySchema", [("id", .required), ("title", .required), ("resourcePath", .required),
    ("primaryKey", .optional), ("fields", .required), ("endpoints", .required),
    ("views", .required)]⟩

/-- Reads an entity. -/
def ofJson : Json → Decoded Entity :=
  Json.source.readRecord shape ⟨"", "", "", none, [], {}, {}⟩ fun entity key value =>
    match key with
    | "id" => return { entity with id := ← value.readString }
    | "title" => return { entity with title := ← value.readString }
    | "resourcePath" => return { entity with resourcePath := ← value.readString }
    | "primaryKey" => return { entity with
        primaryKey := ← value.readOptional Json.readString }
    | "fields" => return { entity with fields := ← value.readList Field.ofJson }
    | "endpoints" => return { entity with endpoints := ← Endpoints.ofJson value }
    | "views" => return { entity with views := ← Views.ofJson value }
    | _ => return entity

end Entity

namespace UiSchema

/-- The fields of a UI schema. -/
def shape : Shape :=
  ⟨"UiSchema", [("version", .required), ("entities", .required)]⟩

/-- Reads a UI schema. -/
def ofJson : Json → Decoded UiSchema :=
  Json.source.readRecord shape {} fun ui key value => match key with
    | "version" => return { ui with version := ← value.readWord }
    | "entities" => return { ui with
        entities := .ofList (← Json.source.readTable Entity.ofJson value) }
    | _ => return ui

end UiSchema

end CrudUi
