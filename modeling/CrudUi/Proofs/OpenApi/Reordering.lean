import CrudUi.OpenApi.Document
import CrudUi.Proofs.Entries.Reordering

/-!
# Documents in another order

Most of what a document declares has no order: the properties of a schema, the names it requires
and the values it allows, the responses of an operation, the payloads of a response or request, and
the components.  Two documents that differ in nothing but the order in which these are written are
reordered.  Paths, tags and the branches of a choice or of `allOf` do have an order, and stay where
they are.

## Main definitions

* `Schema.Reordered` : two schemas differ only in the order of declarations, at any depth.
* `Document.Reordered` : two documents differ only in the order of declarations.
-/

namespace CrudUi

/-! ### Schemas -/

namespace Schema

/-- Two schemas are the same up to the order of their properties, required names and allowed values,
if the schemas inside are related. -/
structure PartsReordered (related : Schema → Schema → Prop) (schema schema' : Schema) : Prop where
  reference_eq : schema'.reference = schema.reference
  type_eq : schema'.type = schema.type
  format_eq : schema'.format = schema.format
  enumValues : Option.Rel List.Perm schema.enumValues schema'.enumValues
  properties : Entries.Reordered related schema.properties schema'.properties
  required : schema.required.Perm schema'.required
  items : Option.Rel related schema.items schema'.items
  allOf : List.Forall₂ related schema.allOf schema'.allOf
  oneOf : List.Forall₂ related schema.oneOf schema'.oneOf
  anyOf : List.Forall₂ related schema.anyOf schema'.anyOf
  readOnly_eq : schema'.readOnly = schema.readOnly
  writeOnly_eq : schema'.writeOnly = schema.writeOnly

/-- Two schemas are the same up to the order of declarations, and so are the schemas inside. -/
inductive Reordered : Schema → Schema → Prop
  | intro {related : Schema → Schema → Prop} {schema schema' : Schema}
      (hrelated : ∀ part part', related part part' → Reordered part part')
      (hparts : PartsReordered related schema schema') : Reordered schema schema'

variable {related related' : Schema → Schema → Prop} {schema schema' : Schema}

theorem PartsReordered.mono (hmono : ∀ part part', related part part' → related' part part')
    (h : PartsReordered related schema schema') : PartsReordered related' schema schema' where
  reference_eq := h.reference_eq
  type_eq := h.type_eq
  format_eq := h.format_eq
  enumValues := h.enumValues
  properties := h.properties.mono hmono
  required := h.required
  items := rel_mono hmono h.items
  allOf := h.allOf.imp hmono
  oneOf := h.oneOf.imp hmono
  anyOf := h.anyOf.imp hmono
  readOnly_eq := h.readOnly_eq
  writeOnly_eq := h.writeOnly_eq

theorem reordered_iff : Reordered schema schema' ↔ PartsReordered Reordered schema schema' :=
  ⟨fun ⟨hrelated, hparts⟩ => hparts.mono hrelated, .intro fun _ _ h => h⟩

theorem Reordered.parts (h : Reordered schema schema') : PartsReordered Reordered schema schema' :=
  reordered_iff.mp h

/-! ### The size of a schema -/

theorem size_eq (schema : Schema) : schema.size = 1 + sizeOfProperties schema.properties +
    sizeOfOption schema.items + sizeOfList schema.allOf + sizeOfList schema.oneOf +
      sizeOfList schema.anyOf := by
  cases schema
  rfl

theorem sizeOfProperties_append (front back : Entries Schema) :
    sizeOfProperties (front ++ back) = sizeOfProperties front + sizeOfProperties back := by
  induction front with
  | nil => simp [sizeOfProperties]
  | cons entry rest ih => simp [sizeOfProperties, ih, Nat.add_assoc]

theorem sizeOfProperties_eq {properties properties' : Entries Schema}
    (h : Entries.Reordered (fun part part' => part.size = part'.size) properties properties') :
    sizeOfProperties properties = sizeOfProperties properties' := by
  induction h with
  | nil => rfl
  | cons _ hvalue _ ih =>
    rw [sizeOfProperties_append] at ih ⊢
    rw [sizeOfProperties, sizeOfProperties, ih, hvalue]
    exact Nat.add_left_comm ..

theorem sizeOfOption_eq {part part' : Option Schema}
    (h : Option.Rel (fun part part' => part.size = part'.size) part part') :
    sizeOfOption part = sizeOfOption part' := by
  cases h with
  | none => rfl
  | some heq => exact heq

theorem sizeOfList_eq {parts parts' : List Schema}
    (h : List.Forall₂ (fun part part' => part.size = part'.size) parts parts') :
    sizeOfList parts = sizeOfList parts' := by
  induction h with
  | nil => rfl
  | cons heq _ ih => rw [sizeOfList, sizeOfList, heq, ih]

/-- The order of declarations does not change the number of schemas. -/
theorem Reordered.size_eq (h : Reordered schema schema') : schema.size = schema'.size := by
  induction h with
  | intro _ hparts ih =>
    obtain hsizes := hparts.mono ih
    rw [Schema.size_eq, Schema.size_eq, sizeOfProperties_eq hsizes.properties,
      sizeOfOption_eq hsizes.items, sizeOfList_eq hsizes.allOf, sizeOfList_eq hsizes.oneOf,
      sizeOfList_eq hsizes.anyOf]

/-! ### The shape of a schema -/

namespace Reordered

theorem typeName?_eq (h : Reordered schema schema') : schema.typeName? = schema'.typeName? := by
  rw [typeName?, typeName?, h.parts.type_eq]

theorem isArray_eq (h : Reordered schema schema') : schema.isArray = schema'.isArray := by
  rw [isArray, isArray, h.typeName?_eq, h.parts.type_eq, isSome_eq_of_rel h.parts.items]

theorem isObjectShaped_eq (h : Reordered schema schema') :
    schema.isObjectShaped = schema'.isObjectShaped := by
  rw [isObjectShaped, isObjectShaped, h.typeName?_eq, h.parts.properties.isEmpty_eq]

theorem isPolymorphic_eq (h : Reordered schema schema') :
    schema.isPolymorphic = schema'.isPolymorphic := by
  rw [isPolymorphic, isPolymorphic, isEmpty_eq_of_forall₂ h.parts.oneOf,
    isEmpty_eq_of_forall₂ h.parts.anyOf]

theorem unwrapArray (h : Reordered schema schema') :
    Reordered schema.unwrapArray schema'.unwrapArray := by
  have hitems := h.parts.items
  rw [Schema.unwrapArray, Schema.unwrapArray, h.isArray_eq]
  generalize schema.items = items, schema'.items = items' at hitems
  cases hitems with
  | none => exact h
  | some hitems =>
    cases schema'.isArray with
    | true => exact hitems
    | false => exact h

end Reordered

end Schema

/-! ### Documents -/

/-- Both are the same reference, or both are definitions in place, which are related. -/
inductive RefOr.Reordered {α : Type} (related : α → α → Prop) : RefOr α → RefOr α → Prop
  | reference (target : String) : Reordered related (.reference target) (.reference target)
  | inline {value value' : α} (hvalue : related value value') :
      Reordered related (.inline value) (.inline value')

/-- The payloads have reordered schemas, or none. -/
def MediaType.Reordered (media media' : MediaType) : Prop :=
  Option.Rel Schema.Reordered media.schema media'.schema

/-- The payloads of both requests stand in another order. -/
def RequestBody.Reordered (body body' : RequestBody) : Prop :=
  Entries.Reordered MediaType.Reordered body.content body'.content

/-- The payloads of both responses stand in another order. -/
structure Response.Reordered (response response' : Response) : Prop where
  description_eq : response'.description = response.description
  content : Entries.Reordered MediaType.Reordered response.content response'.content

/-- The responses of both operations stand in another order, and so do the payloads. -/
structure Operation.Reordered (operation operation' : Operation) : Prop where
  operationId_eq : operation'.operationId = operation.operationId
  tags_eq : operation'.tags = operation.tags
  requestBody : Option.Rel (RefOr.Reordered RequestBody.Reordered) operation.requestBody
    operation'.requestBody
  responses : Entries.Reordered (RefOr.Reordered Response.Reordered) operation.responses
    operation'.responses

/-- Both paths declare reordered operations, with the same methods. -/
def PathItem.Reordered (item item' : PathItem) : Prop :=
  ∀ method, Option.Rel Operation.Reordered (item.operation? method) (item'.operation? method)

/-- The components of each section stand in another order. -/
structure Components.Reordered (components components' : Components) : Prop where
  schemas : Entries.Reordered Schema.Reordered components.schemas components'.schemas
  responses : Entries.Reordered Response.Reordered components.responses components'.responses
  requestBodies :
    Entries.Reordered RequestBody.Reordered components.requestBodies components'.requestBodies

/-- Two documents are the same, with the paths in the same order, up to the order of all other
declarations. -/
structure Document.Reordered (document document' : Document) : Prop where
  version?_eq : document'.version? = document.version?
  paths : Entries.Aligned PathItem.Reordered document.paths document'.paths
  components : document.components.Reordered document'.components

end CrudUi
