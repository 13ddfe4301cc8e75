import CrudUi.Store
import CrudUi.Text.Percent
import CrudUi.Text.Split

/-!
# Routes

A request is answered by one of six routes.  The percent escapes of its path are decoded twice: once
before the segments are compared, but for the escapes of three characters, and where a segment is a
name or an id once more.  A path with an empty segment matches no route, and a query counts for
nothing.
-/

namespace CrudUi

/-- A request.  The body is the text that is sent as JSON, if one is. -/
structure Request where
  method : String
  path : String
  body : Option String := none
  deriving DecidableEq, Repr

/-- What a request to the rows of an entity asks for. -/
inductive RowOperation where
  | list
  | create
  | read (id : String)
  | update (id : String)
  | delete (id : String)
  deriving DecidableEq, Repr

namespace RowOperation

/-- The action that an operation performs. -/
def action : RowOperation → Action
  | .list => .list
  | .create => .create
  | .read _ => .read
  | .update _ => .update
  | .delete _ => .delete

/-- Whether an operation reads the body of its request. -/
def readsBody : RowOperation → Bool
  | .create | .update _ => true
  | .list | .read _ | .delete _ => false

/-- The request to the store, with the record that was sent. -/
def storeRequest (operation : RowOperation) (input : Record) : StoreRequest :=
  match operation with
  | .list => .list
  | .create => .create input
  | .read id => .read id
  | .update id => .update id input
  | .delete id => .delete id

theorem action_storeRequest (operation : RowOperation) (input : Record) :
    (operation.storeRequest input).action = operation.action := by
  cases operation <;> rfl

end RowOperation

/-- What a request is for. -/
inductive Route where
  | uiSchema
  | rows (entity : String) (operation : RowOperation)
  deriving DecidableEq, Repr

namespace Route

/-- The bytes whose escapes are left as they are when segments are compared: those of `%`, `/` and
`+`. -/
def protectedBytes : List UInt8 := [0x25, 0x2F, 0x2B]

/-- The segments of a path before its query, as they are compared; none unless the path starts with
a slash. -/
def segments? (path : String) : Option (List String) :=
  match path.toList.takeWhile fun c => c ≠ '?' ∧ c ≠ '#' with
  | '/' :: rest =>
    some ((Text.splitOn (· = '/') rest).map fun segment =>
      String.ofList (Text.Percent.decodeExcept protectedBytes segment))
  | _ => none

/-- The name or id that a segment stands for. -/
def parameter (segment : String) : String :=
  String.ofList (Text.Percent.decode segment.toList)

/-- The route of a request. -/
def find? (method path : String) : Option Route := do
  let segments ← segments? path
  if "" ∈ segments then none
  else match method, segments with
    | "GET", ["ui-schema"] => some .uiSchema
    | "GET", ["mock", entity] => some (.rows (parameter entity) .list)
    | "POST", ["mock", entity] => some (.rows (parameter entity) .create)
    | "GET", ["mock", entity, id] => some (.rows (parameter entity) (.read (parameter id)))
    | "PATCH", ["mock", entity, id] => some (.rows (parameter entity) (.update (parameter id)))
    | "DELETE", ["mock", entity, id] => some (.rows (parameter entity) (.delete (parameter id)))
    | _, _ => none

end Route

end CrudUi
