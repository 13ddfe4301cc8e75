import CrudUi.Ascending
import CrudUi.Crud.Action
import CrudUi.Ui.Field

/-!
# Entities

An entity is a resource of an API with its fields, the operations behind its actions, and default
views.  A UI schema is a table of entities by their names.
-/

namespace CrudUi

/-- The operation behind an action. -/
structure Endpoint where
  method : String
  path : String
  operationId : Option String := none
  deriving DecidableEq, Repr

/-- The operations behind the actions of an entity. -/
structure Endpoints where
  create : Option Endpoint := none
  delete : Option Endpoint := none
  list : Option Endpoint := none
  read : Option Endpoint := none
  update : Option Endpoint := none
  deriving DecidableEq, Repr

namespace Endpoints

/-- The operation behind an action. -/
def get? (endpoints : Endpoints) : Action → Option Endpoint
  | .create => endpoints.create
  | .delete => endpoints.delete
  | .list => endpoints.list
  | .read => endpoints.read
  | .update => endpoints.update

/-- Puts an operation behind an action. -/
def set (endpoints : Endpoints) (action : Action) (endpoint : Endpoint) : Endpoints :=
  match action with
  | .create => { endpoints with create := some endpoint }
  | .delete => { endpoints with delete := some endpoint }
  | .list => { endpoints with list := some endpoint }
  | .read => { endpoints with read := some endpoint }
  | .update => { endpoints with update := some endpoint }

/-- The operations in the order of their actions. -/
def toList (endpoints : Endpoints) : List (Action × Endpoint) :=
  Action.all.filterMap fun action => (endpoints.get? action).map (action, ·)

theorem get?_set (endpoints : Endpoints) (action other : Action) (endpoint : Endpoint) :
    (endpoints.set action endpoint).get? other =
      if action = other then some endpoint else endpoints.get? other := by
  cases action <;> cases other <;> rfl

/-- Endpoints are the same if the same operations stand behind their actions. -/
theorem ext_get? {endpoints endpoints' : Endpoints}
    (h : ∀ action, endpoints.get? action = endpoints'.get? action) : endpoints = endpoints' := by
  cases endpoints
  cases endpoints'
  have hcreate := h .create
  have hdelete := h .delete
  have hlist := h .list
  have hread := h .read
  have hupdate := h .update
  simp only [get?] at hcreate hdelete hlist hread hupdate
  simp only [hcreate, hdelete, hlist, hread, hupdate]

end Endpoints

/-- The default views: the columns of the list, and the fields of the detail view and of the
form. -/
structure Views where
  columns : List String := []
  detail : List String := []
  form : List String := []
  deriving DecidableEq, Repr

/-- A resource of an API. -/
structure Entity where
  id : String
  title : String
  resourcePath : String
  /-- The field that identifies a record. -/
  primaryKey : Option String := none
  fields : List Field := []
  endpoints : Endpoints := {}
  views : Views := {}
  deriving DecidableEq, Repr

namespace Entity

/-- The field of a name. -/
def field? (entity : Entity) (name : String) : Option Field :=
  entity.fields.find? (·.name = name)

/-- Whether there is an operation behind an action. -/
def supports (entity : Entity) (action : Action) : Bool :=
  (entity.endpoints.get? action).isSome

end Entity

/-- The entities of an API, by name. -/
structure UiSchema where
  version : Nat := 1
  entities : Ascending.Table Entity := []
  deriving DecidableEq, Repr

end CrudUi
