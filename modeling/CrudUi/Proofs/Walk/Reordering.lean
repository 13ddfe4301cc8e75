import CrudUi.Proofs.OpenApi.Reordering
import CrudUi.Proofs.Walk.Names
import CrudUi.Walk.Draft

/-!
# Drafts do not depend on the order of declarations

A response or a payload is chosen by its name, or as the one of the least name, and a component is
looked up by its name.  Reordered documents therefore choose reordered payloads
(`Operation.Reordered.responseSchema?`, `Operation.Reordered.requestSchema?`), which give the same
names, and the walk gathers the same drafts, but for what stands in the payloads
(`Document.Reordered.drafts`).
-/

namespace CrudUi

variable {components components' : Components}

/-! ### The payload of an operation -/

theorem rel_successResponse? {related : RefOr Response → RefOr Response → Prop}
    {responses responses' : Entries (RefOr Response)}
    (h : Entries.Reordered related responses responses') :
    Option.Rel related (successResponse? responses) (successResponse? responses') := by
  rw [successResponse?_eq, successResponse?_eq]
  exact rel_or (h.lookup _) (h.filter isSuccessCode).least?

theorem rel_jsonMedia? {related : MediaType → MediaType → Prop}
    {content content' : Entries MediaType} (h : Entries.Reordered related content content') :
    Option.Rel related (jsonMedia? content) (jsonMedia? content') := by
  rw [jsonMedia?_eq, jsonMedia?_eq]
  exact rel_or (h.lookup _) (rel_or (h.filter isJsonKind).least? h.least?)

namespace Components.Reordered

theorem response? (h : components.Reordered components') {response response' : RefOr Response}
    (hresponse : response.Reordered Response.Reordered response') :
    Option.Rel Response.Reordered (components.response? response)
      (components'.response? response') := by
  cases hresponse with
  | reference target =>
    rw [Components.response?, Components.response?]
    cases Reference.componentName? "responses" target with
    | none => exact .none
    | some name => exact h.responses.lookup name
  | inline hvalue => exact .some hvalue

theorem requestBody? (h : components.Reordered components') {body body' : RefOr RequestBody}
    (hbody : body.Reordered RequestBody.Reordered body') :
    Option.Rel RequestBody.Reordered (components.requestBody? body)
      (components'.requestBody? body') := by
  cases hbody with
  | reference target =>
    rw [Components.requestBody?, Components.requestBody?]
    cases Reference.componentName? "requestBodies" target with
    | none => exact .none
    | some name => exact h.requestBodies.lookup name
  | inline hvalue => exact .some hvalue

end Components.Reordered

theorem Schema.Reordered.referencedName?_eq {schema schema' : Schema}
    (h : schema.Reordered schema') : schema.referencedName? = schema'.referencedName? := by
  rw [referencedName?, referencedName?, h.unwrapArray.parts.reference_eq]

namespace Operation.Reordered

variable {operation operation' : Operation}

theorem responseSchema? (h : operation.Reordered operation')
    (hcomponents : components.Reordered components') :
    Option.Rel Schema.Reordered (operation.responseSchema? components)
      (operation'.responseSchema? components') :=
  rel_bind (rel_successResponse? h.responses) fun _ _ hresponse =>
    rel_bind (hcomponents.response? hresponse) fun _ _ hresponse =>
      rel_bind (rel_jsonMedia? hresponse.content) fun _ _ hmedia => hmedia

theorem requestSchema? (h : operation.Reordered operation')
    (hcomponents : components.Reordered components') :
    Option.Rel Schema.Reordered (operation.requestSchema? components)
      (operation'.requestSchema? components') :=
  rel_bind h.requestBody fun _ _ hbody =>
    rel_bind (hcomponents.requestBody? hbody) fun _ _ hbody =>
      rel_bind (rel_jsonMedia? hbody) fun _ _ hmedia => hmedia

theorem schemaName?_eq (h : operation.Reordered operation')
    (hcomponents : components.Reordered components') :
    operation.schemaName? components = operation'.schemaName? components' := by
  have hresponse := bind_eq_of_rel (h.responseSchema? hcomponents)
    fun _ _ hschema => hschema.referencedName?_eq
  have hrequest := bind_eq_of_rel (h.requestSchema? hcomponents)
    fun _ _ hschema => hschema.referencedName?_eq
  rw [Operation.schemaName?, Operation.schemaName?, hresponse, hrequest]

end Operation.Reordered

/-! ### The walk -/

/-- Two operations stand for the same action on the same path. -/
structure CrudOperation.Reordered (operation operation' : CrudOperation) : Prop where
  path_eq : operation'.path = operation.path
  method_eq : operation'.method = operation.method
  action_eq : operation'.action = operation.action
  operation : operation.operation.Reordered operation'.operation

theorem CrudOperation.Reordered.identify_eq {operation operation' : CrudOperation}
    (h : operation.Reordered operation') (hcomponents : components.Reordered components') :
    (operation.identify components).1 = (operation'.identify components').1 := by
  have htag : IdentityRule.tagName? operation.operation =
      IdentityRule.tagName? operation'.operation := by
    rw [IdentityRule.tagName?, IdentityRule.tagName?, h.operation.tags_eq]
  rw [CrudOperation.identify_eq, CrudOperation.identify_eq, h.operation.schemaName?_eq hcomponents,
    htag, h.path_eq]

theorem PathItem.Reordered.operations {item item' : PathItem} (h : item.Reordered item') :
    List.Forall₂ (fun declared declared' => declared'.1 = declared.1 ∧
      declared.2.Reordered declared'.2) item.operations item'.operations := by
  refine List.rel_filterMap (fun method method' hmethod => ?_)
    (List.forall₂_same.mpr fun method _ => Eq.refl method)
  subst hmethod
  exact rel_map (h method) fun _ _ hdeclared => ⟨rfl, hdeclared⟩

theorem Document.Reordered.crudOperations {document document' : Document}
    (h : document.Reordered document') :
    List.Forall₂ CrudOperation.Reordered document.crudOperations document'.crudOperations := by
  refine List.rel_flatMap h.paths fun entry entry' ⟨hpath, hitem⟩ => ?_
  refine List.rel_filterMap (fun declared declared' ⟨hmethod, hdeclared⟩ => ?_) hitem.operations
  rw [hpath, hmethod]
  cases Path.classify declared.1 entry.1 with
  | none => exact .none
  | some action => exact .some ⟨rfl, rfl, rfl, hdeclared⟩

/-! ### Drafts -/

/-- Two drafts are the same, but for what stands in the payloads. -/
structure Draft.Reordered (draft draft' : Draft) : Prop where
  id_eq : draft'.id = draft.id
  resourcePath_eq : draft'.resourcePath = draft.resourcePath
  endpoints_eq : draft'.endpoints = draft.endpoints
  schemaName_eq : draft'.schemaName = draft.schemaName
  candidates : List.Forall₂ Schema.Reordered draft.candidates draft'.candidates

theorem Draft.Reordered.absorb {draft draft' : Draft} (h : draft.Reordered draft')
    (hcomponents : components.Reordered components') {operation operation' : CrudOperation}
    (hoperation : operation.Reordered operation') :
    (draft.absorb components operation).Reordered (draft'.absorb components' operation') where
  id_eq := h.id_eq
  resourcePath_eq := by
    simp only [Draft.absorb, h.resourcePath_eq, hoperation.path_eq]
  endpoints_eq := by
    simp only [Draft.absorb, h.endpoints_eq, hoperation.path_eq, hoperation.method_eq,
      hoperation.action_eq, hoperation.operation.operationId_eq]
  schemaName_eq := by
    simp only [Draft.absorb, h.schemaName_eq, hoperation.operation.schemaName?_eq hcomponents]
  candidates := List.rel_append
    (List.rel_append h.candidates
      (forall₂_toList (hoperation.operation.responseSchema? hcomponents)))
    (forall₂_toList (hoperation.operation.requestSchema? hcomponents))

/-- The names decide where a table is changed, so related tables are changed in the same place. -/
theorem Ascending.Table.aligned_alter {α : Type} {related : α → α → Prop}
    {table table' : Ascending.Table α} (h : Entries.Aligned related table table') (key : String)
    {update update' : Option α → α}
    (hupdate : ∀ found found', Option.Rel related found found' →
      related (update found) (update' found')) :
    Entries.Aligned related (alter key update table) (alter key update' table') := by
  induction h with
  | nil => exact .cons ⟨rfl, hupdate _ _ .none⟩ .nil
  | @cons entry entry' rest rest' hentry hrest ih =>
    obtain ⟨name, value⟩ := entry
    obtain ⟨_, value'⟩ := entry'
    obtain ⟨rfl, hvalue⟩ := hentry
    rw [alter, alter]
    split
    · exact .cons ⟨rfl, hupdate _ _ .none⟩ (.cons ⟨rfl, hvalue⟩ hrest)
    · split
      · exact .cons ⟨rfl, hupdate _ _ (.some hvalue)⟩ hrest
      · exact .cons ⟨rfl, hvalue⟩ ih

/-- One step of the walk keeps the drafts in line. -/
theorem Draft.Reordered.gather (hcomponents : components.Reordered components')
    {drafts drafts' : Ascending.Table Draft} (h : Entries.Aligned Draft.Reordered drafts drafts')
    {operation operation' : CrudOperation} (hoperation : operation.Reordered operation') :
    Entries.Aligned Draft.Reordered (Draft.gather components drafts operation)
      (Draft.gather components' drafts' operation') := by
  rw [Draft.gather, Draft.gather, hoperation.identify_eq hcomponents]
  refine Ascending.Table.aligned_alter h _ fun found found' hfound => ?_
  refine Draft.Reordered.absorb ?_ hcomponents hoperation
  cases hfound with
  | none => exact ⟨rfl, congrArg Path.resource hoperation.path_eq, rfl, rfl, .nil⟩
  | some hdraft => exact hdraft

theorem Draft.Reordered.foldl_gather (hcomponents : components.Reordered components')
    {operations operations' : List CrudOperation}
    (hoperations : List.Forall₂ CrudOperation.Reordered operations operations')
    {drafts drafts' : Ascending.Table Draft}
    (h : Entries.Aligned Draft.Reordered drafts drafts') :
    Entries.Aligned Draft.Reordered (operations.foldl (Draft.gather components) drafts)
      (operations'.foldl (Draft.gather components') drafts') := by
  induction hoperations generalizing drafts drafts' with
  | nil => exact h
  | cons hoperation _ ih => exact ih (Draft.Reordered.gather hcomponents h hoperation)

theorem Document.Reordered.drafts {document document' : Document}
    (h : document.Reordered document') :
    Entries.Aligned Draft.Reordered document.drafts document'.drafts :=
  Draft.Reordered.foldl_gather h.components h.crudOperations .nil

end CrudUi
