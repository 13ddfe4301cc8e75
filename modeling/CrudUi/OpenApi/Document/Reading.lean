import CrudUi.Decode
import CrudUi.OpenApi.Document
import CrudUi.OpenApi.Schema.Keywords

/-!
# Reading documents

Documents are read from JSON values and from texts.  The table of paths is read as generic values
first, whatever the text; the items of the paths are then read from these values.  A schema is
never the reason for which a document cannot be read.
-/

namespace CrudUi

variable {m : Type → Type} [Monad m] [MonadExceptOf DecodeError m] {ν : Type}

/-- The fields of a payload. -/
def MediaType.shape : Shape := ⟨"MediaType", [("schema", .optional)]⟩

/-- Reads a payload. -/
def MediaType.read (source : Source m ν) : ν → m MediaType :=
  source.readRecord shape {} fun media key node => match key with
    | "schema" => do
      return { media with
        schema := ← source.readOptional (fun node => Schema.ofJson <$> source.keep node) node }
    | _ => pure media

/-- The fields of a request body. -/
def RequestBody.shape : Shape := ⟨"RequestBody", [("content", .defaulted)]⟩

/-- Reads a request body. -/
def RequestBody.read (source : Source m ν) : ν → m RequestBody :=
  source.readRecord shape {} fun body key node => match key with
    | "content" => do
      return { body with content := ← source.readTable (MediaType.read source) node }
    | _ => pure body

/-- The fields of a response. -/
def Response.shape : Shape :=
  ⟨"Response", [("description", .optional), ("content", .defaulted)]⟩

/-- Reads a response. -/
def Response.read (source : Source m ν) : ν → m Response :=
  source.readRecord shape {} fun response key node => match key with
    | "description" => do
      return { response with description := ← source.readOptional source.text node }
    | "content" => do
      return { response with content := ← source.readTable (MediaType.read source) node }
    | _ => pure response

/-- The fields of the named definitions. -/
def Components.shape : Shape :=
  ⟨"Components", [("schemas", .defaulted), ("responses", .defaulted),
    ("requestBodies", .defaulted)]⟩

/-- Reads the named definitions. -/
def Components.read (source : Source m ν) : ν → m Components :=
  source.readRecord shape {} fun components key node => match key with
    | "schemas" => do
      return { components with
        schemas := ← source.readTable (fun node => Schema.ofJson <$> source.keep node) node }
    | "responses" => do
      return { components with responses := ← source.readTable (Response.read source) node }
    | "requestBodies" => do
      return { components with requestBodies := ← source.readTable (RequestBody.read source) node }
    | _ => pure components

/-- Reads a definition in place or a reference.  A reference is an object with a string under
`$ref`, whatever else it holds. -/
def RefOr.ofJson {α : Type} (read : Json → Decoded α) (value : Json) : Decoded (RefOr α) :=
  let inline : Decoded (RefOr α) := match read value with
    | .ok value => .ok (.inline value)
    | .error _ => .error (.noVariant "RefOr")
  match value with
  | .object entries => match Entries.lookup "$ref" entries with
    | some (.string target) => .ok (.reference target)
    | _ => inline
  | _ => inline

/-- The fields of an operation. -/
def Operation.shape : Shape :=
  ⟨"Operation", [("operationId", .optional), ("tags", .defaulted), ("requestBody", .optional),
    ("responses", .defaulted)]⟩

/-- Reads an operation. -/
def Operation.ofJson : Json → Decoded Operation :=
  Json.source.readRecord shape {} fun operation key value => match key with
    | "operationId" => do
      return { operation with operationId := ← Json.readOptional Json.readString value }
    | "tags" => do
      return { operation with tags := ← Json.readList Json.readString value }
    | "requestBody" => do
      return { operation with
        requestBody := ← Json.readOptional (RefOr.ofJson (RequestBody.read Json.source)) value }
    | "responses" => do
      return { operation with
        responses := ← Json.source.readTable (RefOr.ofJson (Response.read Json.source)) value }
    | _ => pure operation

/-- The fields of a path item. -/
def PathItem.shape : Shape :=
  ⟨"PathItem", Method.all.map fun method => (method.field, .optional)⟩

/-- Reads a path item. -/
def PathItem.ofJson : Json → Decoded PathItem :=
  Json.source.readRecord shape {} fun item key value => do
    let operation ← Json.readOptional Operation.ofJson value
    return match key with
      | "get" => { item with get := operation }
      | "put" => { item with put := operation }
      | "post" => { item with post := operation }
      | "delete" => { item with delete := operation }
      | "options" => { item with options := operation }
      | "head" => { item with head := operation }
      | "patch" => { item with patch := operation }
      | "trace" => { item with trace := operation }
      | _ => item

namespace Document

/-- Whether an entry of the table of paths is an extension, which is passed over. -/
def isExtension (path : String) : Bool :=
  ['x', '-'].isPrefixOf path.toList

/-- Reads the items of the paths, without the extensions. -/
def pathItems : Entries Json → Decoded (Entries PathItem)
  | [] => .ok []
  | (path, value) :: rest =>
    if isExtension path then pathItems rest
    else match PathItem.ofJson value with
      | .ok item => do return (path, item) :: (← pathItems rest)
      | .error error => .error (.pathItem path error)

/-- Reads the table of paths. -/
def readPaths (source : Source m ν) (node : ν) : m (Entries PathItem) := do
  let table ← source.readOptional (source.readTable source.keep) node
  match pathItems (table.getD []) with
  | .ok items => return items
  | .error error => throw error

/-- The fields of a document. -/
def shape : Shape :=
  ⟨"Document", [("openapi", .defaulted), ("paths", .defaulted), ("components", .defaulted)]⟩

/-- Reads a document. -/
def read (source : Source m ν) : ν → m Document :=
  source.readRecord shape {} fun document key node => match key with
    | "openapi" => do
      return { document with openapi := ← source.readOptional source.keep node }
    | "paths" => do return { document with paths := ← readPaths source node }
    | "components" => do
      return { document with components := ← Components.read source node }
    | _ => pure document

end Document

/-- The reason for which a document cannot be read, by the form it was given in. -/
inductive DocumentError where
  | ofValue (reason : DecodeError)
  | ofJsonText (reason : DecodeError)
  | ofYamlText (reason : DecodeError)
  deriving DecidableEq, Repr

/-- What is wrong with a document.  Of a YAML text only the failure of a path item is told. -/
def DocumentError.reason : DocumentError → String
  | .ofValue reason => "Failed to read OpenAPI document: " ++ reason.message
  | .ofJsonText reason => "Failed to parse OpenAPI JSON: " ++ reason.message
  | .ofYamlText (.pathItem path reason) =>
    "Failed to parse OpenAPI YAML: " ++ (DecodeError.pathItem path reason).message
  | .ofYamlText _ => "Failed to parse OpenAPI YAML"

namespace Document

/-- Reads a document from a JSON value. -/
def ofJson (value : Json) : Except DocumentError Document :=
  (read Json.source value).mapError .ofValue

/-- Reads a document from a JSON text. -/
def ofJsonText (text : String) : Except DocumentError Document :=
  Except.mapError .ofJsonText do
    let (node, more) := Json.Node.ofText text
    let document ← read Json.Placed.source ⟨node, Json.maxDepth⟩
    if more then throw (.text .trailingCharacters)
    return document

end Document

end CrudUi
