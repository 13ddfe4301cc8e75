import CrudUi.Ascending
import CrudUi.OpenApi.Document

/-!
# The payload that stands for an operation

Of the responses the one for `200` is preferred, else the least success code; of the media types
`application/json`, else the least of the form `application/*+json`, else the least of all.
-/

namespace CrudUi

/-- The value under the least name of a table. -/
def Entries.least? {α : Type} (entries : Entries α) : Option α := do
  entries.lookup (← Ascending.least? entries.keys)

/-- Whether a code stands for success: a 2 and two digits, `2XX` or `2xx`. -/
def isSuccessCode (code : String) : Bool :=
  match code.toList with
  | ['2', a, b] =>
    (a.isDigit && b.isDigit) || (a = 'X' && b = 'X') || (a = 'x' && b = 'x')
  | _ => false

/-- The response for success. -/
def successResponse? (responses : Entries (RefOr Response)) : Option (RefOr Response) :=
  match responses.lookup "200" with
  | some response => some response
  | none => Entries.least? (responses.filter fun entry => isSuccessCode entry.1)

theorem successResponse?_eq (responses : Entries (RefOr Response)) :
    successResponse? responses = (responses.lookup "200").or
      (Entries.least? (responses.filter fun entry => isSuccessCode entry.1)) := by
  rw [successResponse?]
  cases responses.lookup "200" <;> rfl

/-- Whether a media type is a kind of JSON by its suffix. -/
def isJsonKind (mediaType : String) : Bool :=
  "application/".toList.isPrefixOf mediaType.toList && "+json".toList.isSuffixOf mediaType.toList

/-- The payload for JSON. -/
def jsonMedia? (content : Entries MediaType) : Option MediaType :=
  match content.lookup "application/json" with
  | some media => some media
  | none =>
    match Entries.least? (content.filter fun entry => isJsonKind entry.1) with
    | some media => some media
    | none => Entries.least? content

theorem jsonMedia?_eq (content : Entries MediaType) :
    jsonMedia? content = (content.lookup "application/json").or
      ((Entries.least? (content.filter fun entry => isJsonKind entry.1)).or
        (Entries.least? content)) := by
  rw [jsonMedia?]
  cases content.lookup "application/json" with
  | some media => rfl
  | none => cases Entries.least? (content.filter fun entry => isJsonKind entry.1) <;> rfl

/-- The schema of the payload of the success response. -/
def Operation.responseSchema? (operation : Operation) (components : Components) :
    Option Schema := do
  let response ← components.response? (← successResponse? operation.responses)
  (← jsonMedia? response.content).schema

/-- The schema of the payload of the request. -/
def Operation.requestSchema? (operation : Operation) (components : Components) :
    Option Schema := do
  let body ← components.requestBody? (← operation.requestBody)
  (← jsonMedia? body.content).schema

/-- The name of the component that a schema refers to, or that the items of a list refer to. -/
def Schema.referencedName? (schema : Schema) : Option String :=
  schema.unwrapArray.reference.bind Reference.schemaName?

/-- The name of the component that the response refers to, else the request. -/
def Operation.schemaName? (operation : Operation) (components : Components) : Option String :=
  ((operation.responseSchema? components).bind Schema.referencedName?).or
    ((operation.requestSchema? components).bind Schema.referencedName?)

end CrudUi
