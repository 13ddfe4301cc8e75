import CrudUi.Json.Printing
import CrudUi.OpenApi.Method
import CrudUi.OpenApi.Reference
import CrudUi.OpenApi.Schema

/-!
# Documents

The part of an OpenAPI document that matters for a user interface: paths with their operations,
the payloads of requests and responses, and the named components that these refer to.
-/

namespace CrudUi

/-- A definition in place, or a reference to a component. -/
inductive RefOr (α : Type) where
  | reference (target : String)
  | inline (value : α)
  deriving DecidableEq, Repr

/-- The payload for one media type. -/
structure MediaType where
  schema : Option Schema := none
  deriving DecidableEq, Repr

/-- A request body: its payloads by media type. -/
structure RequestBody where
  content : Entries MediaType := []
  deriving DecidableEq, Repr

/-- A response. -/
structure Response where
  description : Option String := none
  content : Entries MediaType := []
  deriving DecidableEq, Repr

/-- An operation: what a method does on a path. -/
structure Operation where
  operationId : Option String := none
  tags : List String := []
  requestBody : Option (RefOr RequestBody) := none
  responses : Entries (RefOr Response) := []
  deriving DecidableEq, Repr

/-- The operations of a path. -/
structure PathItem where
  get : Option Operation := none
  put : Option Operation := none
  post : Option Operation := none
  delete : Option Operation := none
  options : Option Operation := none
  head : Option Operation := none
  patch : Option Operation := none
  trace : Option Operation := none
  deriving DecidableEq, Repr

namespace PathItem

/-- The operation of a method. -/
def operation? (item : PathItem) : Method → Option Operation
  | .get => item.get
  | .put => item.put
  | .post => item.post
  | .delete => item.delete
  | .options => item.options
  | .head => item.head
  | .patch => item.patch
  | .trace => item.trace

/-- The declared operations, in walk order. -/
def operations (item : PathItem) : List (Method × Operation) :=
  Method.all.filterMap fun method => (item.operation? method).map (method, ·)

end PathItem

/-- The named definitions that references point to. -/
structure Components where
  schemas : Entries Schema := []
  responses : Entries Response := []
  requestBodies : Entries RequestBody := []
  deriving DecidableEq, Repr

namespace Components

/-- The response that an entry stands for; a reference is followed once. -/
def response? (components : Components) : RefOr Response → Option Response
  | .inline response => some response
  | .reference target => do
    components.responses.lookup (← Reference.componentName? "responses" target)

/-- The request body that an entry stands for; a reference is followed once. -/
def requestBody? (components : Components) : RefOr RequestBody → Option RequestBody
  | .inline body => some body
  | .reference target => do
    components.requestBodies.lookup (← Reference.componentName? "requestBodies" target)

end Components

/-- A document. -/
structure Document where
  /-- The version marker.  Any value may stand here. -/
  openapi : Option Json := none
  paths : Entries PathItem := []
  components : Components := {}
  deriving DecidableEq, Repr

namespace Document

/-- The text of the version marker: a string as it is, or the text of a number. -/
def version? (document : Document) : Option String :=
  match document.openapi with
  | some (.string text) => some text
  | some (.number number) => some number.text
  | _ => none

end Document

end CrudUi
