import CrudUi.Ui.Entity
import CrudUi.Walk.Identity

/-!
# What the operations say about an entity

A draft gathers the operations of one entity: the narrowest path of its collection, the last
operation for each action, the name of its schema and the payloads that may show its fields.
-/

namespace CrudUi

/-- What is known of an entity. -/
structure Draft where
  id : String
  /-- The narrowest path of the collection. -/
  resourcePath : String
  /-- The last operation for each action. -/
  endpoints : Endpoints := {}
  /-- The first component that a payload refers to. -/
  schemaName : Option String := none
  /-- The payloads, in walk order. -/
  candidates : List Schema := []
  deriving DecidableEq, Repr

namespace Draft

/-- Adds an operation to a draft. -/
def absorb (draft : Draft) (components : Components) (operation : CrudOperation) : Draft where
  id := draft.id
  resourcePath :=
    let path := Path.resource operation.path
    if Path.isNarrower path draft.resourcePath then path else draft.resourcePath
  endpoints := draft.endpoints.set operation.action
    ⟨operation.method.name, operation.path, operation.operation.operationId⟩
  schemaName := draft.schemaName.or (operation.operation.schemaName? components)
  candidates := draft.candidates ++ (operation.operation.responseSchema? components).toList ++
    (operation.operation.requestSchema? components).toList

/-- Adds an operation to the draft of its entity. -/
def gather (components : Components) (drafts : Ascending.Table Draft)
    (operation : CrudOperation) : Ascending.Table Draft :=
  let id := (operation.identify components).1
  drafts.alter id fun found =>
    (found.getD { id, resourcePath := Path.resource operation.path }).absorb components operation

end Draft

/-- The drafts of the entities of a document, by name. -/
def Document.drafts (document : Document) : Ascending.Table Draft :=
  document.crudOperations.foldl (Draft.gather document.components) []

end CrudUi
