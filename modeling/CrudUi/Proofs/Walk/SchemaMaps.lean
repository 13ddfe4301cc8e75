import CrudUi.Proofs.Entries.Values
import CrudUi.Walk.Draft

/-!
# Changing the schemas of a document

A function can be applied to every schema of a document: to those of the components and to those of
the payloads.  All that the walk asks of a schema is the component that it refers to, so if the
function keeps this, the drafts are the same, but for the schemas in them
(`Document.drafts_mapSchemas`).

## Main definitions

* `Document.mapSchemas` : a function is applied to every schema of a document.
-/

namespace CrudUi

/-! ### Documents -/

/-- Applies a function to a definition in place. -/
def RefOr.map {α β : Type} (f : α → β) : RefOr α → RefOr β
  | .reference target => .reference target
  | .inline value => .inline (f value)

section Definitions

variable (f : Schema → Schema)

/-- Applies a function to the schema of a payload. -/
def MediaType.mapSchemas (media : MediaType) : MediaType where
  schema := media.schema.map f

/-- Applies a function to the schemas of a request body. -/
def RequestBody.mapSchemas (body : RequestBody) : RequestBody where
  content := body.content.mapValues (·.mapSchemas f)

/-- Applies a function to the schemas of a response. -/
def Response.mapSchemas (response : Response) : Response where
  description := response.description
  content := response.content.mapValues (·.mapSchemas f)

/-- Applies a function to the schemas of an operation. -/
def Operation.mapSchemas (operation : Operation) : Operation where
  operationId := operation.operationId
  tags := operation.tags
  requestBody := operation.requestBody.map (·.map (·.mapSchemas f))
  responses := operation.responses.mapValues (·.map (·.mapSchemas f))

/-- Applies a function to the schemas of a path. -/
def PathItem.mapSchemas (item : PathItem) : PathItem where
  get := item.get.map (·.mapSchemas f)
  put := item.put.map (·.mapSchemas f)
  post := item.post.map (·.mapSchemas f)
  delete := item.delete.map (·.mapSchemas f)
  options := item.options.map (·.mapSchemas f)
  head := item.head.map (·.mapSchemas f)
  patch := item.patch.map (·.mapSchemas f)
  trace := item.trace.map (·.mapSchemas f)

/-- Applies a function to the schemas of components. -/
def Components.mapSchemas (components : Components) : Components where
  schemas := components.schemas.mapValues f
  responses := components.responses.mapValues (·.mapSchemas f)
  requestBodies := components.requestBodies.mapValues (·.mapSchemas f)

/-- Applies a function to every schema of a document. -/
def Document.mapSchemas (document : Document) : Document where
  openapi := document.openapi
  paths := document.paths.mapValues (·.mapSchemas f)
  components := document.components.mapSchemas f

/-- Applies a function to the schemas of an operation that stands for an action. -/
def CrudOperation.mapSchemas (operation : CrudOperation) : CrudOperation :=
  { operation with operation := operation.operation.mapSchemas f }

/-- Applies a function to the schemas of a draft. -/
def Draft.mapSchemas (draft : Draft) : Draft :=
  { draft with candidates := draft.candidates.map f }

end Definitions

variable {f : Schema → Schema}

/-! ### Payloads -/

theorem Entries.least?_mapValues {α β : Type} (f : α → β) (entries : Entries α) :
    least? (mapValues f entries) = (least? entries).map f := by
  rw [least?, least?, keys_mapValues]
  cases Ascending.least? entries.keys with
  | none => rfl
  | some name => exact lookup_mapValues f name entries

theorem successResponse?_mapValues (f : RefOr Response → RefOr Response)
    (responses : Entries (RefOr Response)) :
    successResponse? (responses.mapValues f) = (successResponse? responses).map f := by
  rw [successResponse?_eq, successResponse?_eq, Entries.lookup_mapValues,
    Entries.filter_mapValues f isSuccessCode, Entries.least?_mapValues, Option.map_or]

theorem jsonMedia?_mapValues (f : MediaType → MediaType) (content : Entries MediaType) :
    jsonMedia? (content.mapValues f) = (jsonMedia? content).map f := by
  rw [jsonMedia?_eq, jsonMedia?_eq, Entries.lookup_mapValues,
    Entries.filter_mapValues f isJsonKind, Entries.least?_mapValues, Entries.least?_mapValues,
    Option.map_or, Option.map_or]

theorem Components.response?_mapSchemas (components : Components) (response : RefOr Response) :
    (components.mapSchemas f).response? (response.map (·.mapSchemas f)) =
      (components.response? response).map (·.mapSchemas f) := by
  cases response with
  | inline value => rfl
  | reference target =>
    simp only [RefOr.map, response?, mapSchemas, Entries.lookup_mapValues, Option.bind_eq_bind,
      Option.map_bind, Function.comp_def]

theorem Components.requestBody?_mapSchemas (components : Components) (body : RefOr RequestBody) :
    (components.mapSchemas f).requestBody? (body.map (·.mapSchemas f)) =
      (components.requestBody? body).map (·.mapSchemas f) := by
  cases body with
  | inline value => rfl
  | reference target =>
    simp only [RefOr.map, requestBody?, mapSchemas, Entries.lookup_mapValues, Option.bind_eq_bind,
      Option.map_bind, Function.comp_def]

namespace Operation

variable (operation : Operation) (components : Components)

theorem responseSchema?_mapSchemas :
    (operation.mapSchemas f).responseSchema? (components.mapSchemas f) =
      (operation.responseSchema? components).map f := by
  simp only [responseSchema?, mapSchemas, successResponse?_mapValues,
    Components.response?_mapSchemas, Option.bind_eq_bind, Option.bind_map, Option.map_bind,
    Function.comp_def]
  -- the response is opened only now, after `response?_mapSchemas` has found it as a whole
  simp only [Response.mapSchemas, jsonMedia?_mapValues, Option.bind_map, Function.comp_def]
  rfl

theorem requestSchema?_mapSchemas :
    (operation.mapSchemas f).requestSchema? (components.mapSchemas f) =
      (operation.requestSchema? components).map f := by
  simp only [requestSchema?, mapSchemas, Components.requestBody?_mapSchemas, Option.bind_eq_bind,
    Option.bind_map, Option.map_bind, Function.comp_def]
  simp only [RequestBody.mapSchemas, jsonMedia?_mapValues, Option.bind_map, Function.comp_def]
  rfl

end Operation

/-! ### Operations -/

theorem PathItem.operations_mapSchemas (item : PathItem) :
    (item.mapSchemas f).operations =
      item.operations.map fun declared => (declared.1, declared.2.mapSchemas f) := by
  have hoperation : ∀ method, (item.mapSchemas f).operation? method =
      (item.operation? method).map (·.mapSchemas f) := by
    intro method
    cases method <;> rfl
  simp only [operations, hoperation, List.map_filterMap, Option.map_map, Function.comp_def]

theorem Document.crudOperations_mapSchemas (document : Document) :
    (document.mapSchemas f).crudOperations = document.crudOperations.map (·.mapSchemas f) := by
  simp only [crudOperations, mapSchemas, Entries.mapValues, List.flatMap_map, List.map_flatMap,
    PathItem.operations_mapSchemas, List.filterMap_map, List.map_filterMap, Option.map_map,
    Function.comp_def]
  rfl

/-! ### Drafts -/

section Drafts

variable (hf : ∀ schema : Schema, (f schema).referencedName? = schema.referencedName?)
include hf

theorem bind_referencedName?_map (schema : Option Schema) :
    (schema.map f).bind Schema.referencedName? = schema.bind Schema.referencedName? := by
  rw [Option.bind_map]
  exact congrArg _ (funext hf)

theorem Operation.schemaName?_mapSchemas (operation : Operation) (components : Components) :
    (operation.mapSchemas f).schemaName? (components.mapSchemas f) =
      operation.schemaName? components := by
  rw [schemaName?, schemaName?, responseSchema?_mapSchemas, requestSchema?_mapSchemas,
    bind_referencedName?_map hf, bind_referencedName?_map hf]

theorem IdentityRule.entityName?_mapSchemas (rule : IdentityRule) (components : Components)
    (operation : CrudOperation) :
    rule.entityName? (components.mapSchemas f) (operation.mapSchemas f) =
      rule.entityName? components operation := by
  cases rule with
  | responseSchema =>
    rw [entityName?, entityName?, CrudOperation.mapSchemas, Operation.responseSchema?_mapSchemas,
      bind_referencedName?_map hf]
  | requestSchema =>
    rw [entityName?, entityName?, CrudOperation.mapSchemas, Operation.requestSchema?_mapSchemas,
      bind_referencedName?_map hf]
  | tag => rfl
  | path => rfl

theorem CrudOperation.identify_mapSchemas (operation : CrudOperation) (components : Components) :
    (operation.mapSchemas f).identify (components.mapSchemas f) =
      operation.identify components := by
  simp only [identify, IdentityRule.entityName?_mapSchemas hf]

theorem Draft.absorb_mapSchemas (draft : Draft) (components : Components)
    (operation : CrudOperation) :
    (draft.mapSchemas f).absorb (components.mapSchemas f) (operation.mapSchemas f) =
      (draft.absorb components operation).mapSchemas f := by
  simp only [absorb, mapSchemas, CrudOperation.mapSchemas, Operation.schemaName?_mapSchemas hf,
    Operation.responseSchema?_mapSchemas, Operation.requestSchema?_mapSchemas, List.map_append,
    Option.toList_map]
  rfl

theorem Draft.gather_mapSchemas (components : Components) (drafts : Ascending.Table Draft)
    (operation : CrudOperation) :
    gather (components.mapSchemas f) (drafts.mapValues (·.mapSchemas f)) (operation.mapSchemas f) =
      (gather components drafts operation).mapValues (·.mapSchemas f) := by
  rw [gather, gather, CrudOperation.identify_mapSchemas hf]
  refine Ascending.Table.alter_mapValues (fun found => ?_) _ drafts
  rw [← absorb_mapSchemas hf]
  cases found <;> rfl

theorem Draft.foldl_gather_mapSchemas (components : Components) (operations : List CrudOperation)
    (drafts : Ascending.Table Draft) :
    (operations.map (·.mapSchemas f)).foldl (gather (components.mapSchemas f))
        (drafts.mapValues (·.mapSchemas f)) =
      (operations.foldl (gather components) drafts).mapValues (·.mapSchemas f) := by
  induction operations generalizing drafts with
  | nil => rfl
  | cons operation rest ih =>
    rw [List.map_cons, List.foldl_cons, List.foldl_cons, gather_mapSchemas hf, ih]

/-- If a function keeps what schemas refer to, the drafts of a document are the same, but for the
schemas in them. -/
theorem Document.drafts_mapSchemas (document : Document) :
    (document.mapSchemas f).drafts = document.drafts.mapValues (·.mapSchemas f) := by
  rw [drafts, crudOperations_mapSchemas]
  exact Draft.foldl_gather_mapSchemas hf document.components document.crudOperations []

end Drafts

end CrudUi
