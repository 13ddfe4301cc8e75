/-!
# CRUD actions

The five things that can be done to the records of an entity, in alphabetical order.
-/

namespace CrudUi

/-- A CRUD action. -/
inductive Action where
  | create
  | delete
  | list
  | read
  | update
  deriving DecidableEq, Repr

namespace Action

/-- Every action, in alphabetical order. -/
def all : List Action :=
  [.create, .delete, .list, .read, .update]

/-- The name of an action. -/
def name : Action → String
  | .create => "create"
  | .delete => "delete"
  | .list => "list"
  | .read => "read"
  | .update => "update"

/-- The action of a name. -/
def ofName? (name : String) : Option Action :=
  all.find? fun action => action.name = name

theorem mem_all (action : Action) : action ∈ all := by
  cases action <;> simp [all]

theorem ofName?_name (action : Action) : ofName? action.name = some action := by
  cases action <;> decide

end Action

end CrudUi
