import CrudUi.Json.Node
import CrudUi.Server.Route
import CrudUi.Store.Backend
import CrudUi.Ui.Writing

/-!
# The server

A server holds a UI schema and a backend for its entities.  A request is refused for the first of
these reasons that holds: no route; a body that is no JSON, or no object; a backend that is locked
for good; an unknown entity; an action that the entity has no operation for; what the store says.
What a store may say has one of two kinds, and an error of any other kind would be a failure of the
server.
-/

namespace CrudUi

/-- The outcome of a request. -/
inductive Status where
  | ok
  | created
  | badRequest
  | notFound
  | methodNotAllowed
  | unprocessable
  | internalServerError
  deriving DecidableEq, Repr

/-- The code of an outcome. -/
def Status.code : Status → Nat
  | .ok => 200
  | .created => 201
  | .badRequest => 400
  | .notFound => 404
  | .methodNotAllowed => 405
  | .unprocessable => 422
  | .internalServerError => 500

/-- The outcome of a request that is refused with an error. -/
def Status.ofKind : ErrorKind → Status
  | .notFound => .notFound
  | .validation => .unprocessable
  | _ => .internalServerError

/-- Whether a request was carried out. -/
def Status.isSuccess : Status → Bool
  | .ok | .created => true
  | _ => false

/-- An answer.  The body is a JSON value, if there is one. -/
structure Reply where
  status : Status
  body : Option Json := none
  deriving DecidableEq, Repr

namespace Reply

/-- An answer that says what is wrong. -/
def refusal (status : Status) (reason : String) : Reply :=
  ⟨status, some (.object [("error", .string reason)])⟩

/-- The answer for an error. -/
def ofError (error : AppError) : Reply :=
  .refusal (.ofKind error.kind) error.message

end Reply

/-- The rows of an answer as a JSON value. -/
def StoreReply.toJson : StoreReply → Json
  | .rows records => .array (records.map .object)
  | .row record => .object record

/-- A UI schema and the rows of its entities. -/
structure Server where
  ui : UiSchema
  backend : Backend
  /-- Whether a request has panicked while it held the lock of the backend, which locks it for
  good. -/
  poisoned : Bool := false
  deriving DecidableEq, Repr

namespace Server

/-- The server with a number of sample rows for each entity. -/
def seeded (ui : UiSchema) (count : Nat) : Server where
  ui := ui
  backend := .seeded ui count

/-- The record in the body of a request. -/
def readRecord (body : Option String) : Except Reply Record :=
  match body.map Json.parse with
  | some (.ok (.object record)) => .ok record
  | some (.ok _) => .error (.refusal .badRequest "request body must be a JSON object")
  | some (.error _) | none => .error ⟨.badRequest, none⟩

/-- Passes a request on to the store of an entity. -/
def dispatch (server : Server) (entity : String) (request : StoreRequest) : Reply × Server :=
  if server.poisoned then (⟨.internalServerError, none⟩, server)
  else match server.backend.store? entity with
  | .error error => (.ofError error, server)
  | .ok store =>
    if store.entity.supports request.action then
      match server.backend.run entity request with
      | (.ok reply, backend) =>
        (⟨if request.action = .create then .created else .ok, some reply.toJson⟩,
          { server with backend })
      | (.error error, backend) => (.ofError error, { server with backend })
    else
      (.refusal .methodNotAllowed (entity ++ " does not support " ++ request.action.name), server)

/-- The answer to a request, and the server it leaves. -/
def respond (server : Server) (request : Request) : Reply × Server :=
  match Route.find? request.method request.path with
  | none => (⟨.notFound, none⟩, server)
  | some .uiSchema => (⟨.ok, some server.ui.toJson⟩, server)
  | some (.rows entity operation) =>
    if operation.readsBody then
      match readRecord request.body with
      | .ok record => server.dispatch entity (operation.storeRequest record)
      | .error reply => (reply, server)
    else server.dispatch entity (operation.storeRequest [])

/-- The answers to requests one after another, and the server they leave. -/
def respondAll (server : Server) : List Request → List Reply × Server
  | [] => ([], server)
  | request :: rest =>
    let (reply, server) := server.respond request
    let (replies, server) := server.respondAll rest
    (reply :: replies, server)

end Server

end CrudUi
