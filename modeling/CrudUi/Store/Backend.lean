import CrudUi.Store

/-!
# Backends

A backend holds one store for each entity of a UI schema.  A request to one entity leaves the
stores of the others alone.
-/

namespace CrudUi

/-- The stores of a UI schema, by the names of their entities. -/
structure Backend where
  stores : Ascending.Table Store := []
  deriving DecidableEq, Repr

namespace Backend

/-- The backend with a number of sample rows for each entity. -/
def seeded (ui : UiSchema) (count : Nat) : Backend where
  stores := Entries.mapValues (Store.seeded · count) ui.entities

/-- The store of an entity. -/
def store? (backend : Backend) (entity : String) : Except AppError Store :=
  match backend.stores.lookup entity with
  | some store => .ok store
  | none => .error (.noEntity entity)

/-- The answer to a request to an entity, and the backend it leaves. -/
def run (backend : Backend) (entity : String) (request : StoreRequest) :
    Except AppError StoreReply × Backend :=
  match backend.store? entity with
  | .ok store =>
    let (result, store) := store.run request
    (result, { backend with stores := backend.stores.insert entity store })
  | .error error => (.error error, backend)

end Backend

end CrudUi
