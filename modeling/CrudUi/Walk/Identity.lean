import CrudUi.Crud.Path
import CrudUi.Naming
import CrudUi.Walk.Payload

/-!
# The operations of a document and their entities

The paths are walked in their order and the methods of each path in a fixed order; operations that
stand for no action are passed over.  The entity of an operation is named by the first of four
rules that gives a name: the component of the response, that of the request, the first tag, the
path.
-/

namespace CrudUi

/-- An operation that stands for an action. -/
structure CrudOperation where
  path : String
  method : Method
  action : Action
  operation : Operation
  deriving DecidableEq, Repr

/-- The operations of a document that stand for actions, in walk order. -/
def Document.crudOperations (document : Document) : List CrudOperation :=
  document.paths.flatMap fun entry => entry.2.operations.filterMap fun declared =>
    (Path.classify declared.1 entry.1).map fun action =>
      ⟨entry.1, declared.1, action, declared.2⟩

/-- A rule that may name the entity of an operation. -/
inductive IdentityRule where
  | responseSchema
  | requestSchema
  | tag
  | path
  deriving DecidableEq, Repr

namespace IdentityRule

/-- Every rule, in the order in which they are tried. -/
def all : List IdentityRule :=
  [.responseSchema, .requestSchema, .tag, .path]

/-- The name of a rule. -/
def name : IdentityRule → String
  | .responseSchema => "response-schema"
  | .requestSchema => "request-schema"
  | .tag => "tag"
  | .path => "path"

/-- The name of an entity whose operations nothing else names. -/
def fallback : String := "Entity"

/-- The name that the first tag gives. -/
def tagName? (operation : Operation) : Option String :=
  match operation.tags with
  | [] => none
  | first :: _ =>
    let name := Naming.pascalCase first
    if name = "" then none else some name

/-- The name that a path gives: that of the last segment which is no parameter, in the
singular. -/
def pathName (path : String) : String :=
  match Path.lastStatic? path with
  | some segment =>
    let name := Naming.pascalCase (Naming.singularize segment)
    if name = "" then fallback else name
  | none => fallback

/-- The name that a rule gives to the entity of an operation. -/
def entityName? (rule : IdentityRule) (components : Components) (operation : CrudOperation) :
    Option String :=
  match rule with
  | .responseSchema => (operation.operation.responseSchema? components).bind
      Schema.referencedName?
  | .requestSchema => (operation.operation.requestSchema? components).bind
      Schema.referencedName?
  | .tag => tagName? operation.operation
  | .path => some (pathName operation.path)

end IdentityRule

/-- The name of the entity of an operation, and the name of the rule that gives it. -/
def CrudOperation.identify (operation : CrudOperation) (components : Components) :
    String × String :=
  (IdentityRule.all.findSome? fun rule =>
    (rule.entityName? components operation).map fun name => (name, rule.name)).getD
      (IdentityRule.fallback, "fallback")

end CrudUi
