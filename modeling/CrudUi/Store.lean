import CrudUi.Errors
import CrudUi.Store.Sample

/-!
# Stores

A store holds the rows of one entity.  Rows are addressed by their ids; of several rows with one id
the first is meant.  A row that is created without a text under the primary key gets the next number
that is no id, and numbers are used up even where the row is then rejected.

## Main definitions

* `Store.ids` : the ids of the rows, in order.
* `Store.allocate` : the next free number.
* `Store.create`, `Store.update`, `Store.delete` : the changes, each with the store it leaves.
* `Store.run` : the answer to a request.
-/

namespace CrudUi

/-- Checks a record against the fields of an entity. -/
def Entity.validate (entity : Entity) (record : Record) : Except AppError Unit :=
  match entity.problems record with
  | [] => .ok ()
  | problems => .error (.invalid entity.id problems)

/-- The rows of an entity, and the number from which new ids are taken. -/
structure Store where
  entity : Entity
  rows : List Record := []
  nextId : Nat := 1
  deriving DecidableEq, Repr

namespace Store

/-- The store with a number of sample rows. -/
def seeded (entity : Entity) (count : Nat) : Store where
  entity := entity
  rows := (List.range count).map entity.sample
  nextId := count + 1

/-- The ids of the rows. -/
def ids (store : Store) : List String :=
  store.rows.mapIdx fun index row => store.entity.rowId row index

/-- The place of the first row with an id. -/
def position? (store : Store) (id : String) : Option Nat :=
  store.ids.findIdx? (· = id)

/-- The row with an id. -/
def row? (store : Store) (id : String) : Option Record := do
  store.rows[← store.position? id]?

/-- The least number from `nextId` on that is no id.  Of one number more than there are rows, at
least one is free. -/
def freeNumber (store : Store) : Nat :=
  ((List.range' store.nextId (store.rows.length + 1)).find? fun n =>
    toString n ∉ store.ids).getD store.nextId

/-- Takes the next free number. -/
def allocate (store : Store) : String × Store :=
  (toString store.freeNumber, { store with nextId := store.freeNumber + 1 })

/-- Gives a record a primary key, if it needs one. -/
def assignKey (store : Store) (input : Record) : Record × Store :=
  if store.entity.primaryKey.isSome ∧ (store.entity.key? input).isNone then
    let (id, store) := store.allocate
    (store.entity.withKey input id, store)
  else (input, store)

/-- The row with an id, or the error that there is none. -/
def read (store : Store) (id : String) : Except AppError Record :=
  match store.row? id with
  | some row => .ok row
  | none => .error (.noRow store.entity.id id)

/-- Checks a record that is to become the last row. -/
def checkNew (store : Store) (record : Record) : Except AppError Unit := do
  store.entity.validate record
  let id := store.entity.rowId record store.rows.length
  if id ∈ store.ids then throw (.taken store.entity.id id)

/-- Appends a record. -/
def create (store : Store) (input : Record) : Except AppError Record × Store :=
  let (record, store) := store.assignKey input
  match store.checkNew record with
  | .ok () => (.ok record, { store with rows := store.rows ++ [record] })
  | .error error => (.error error, store)

/-- Writes the entries of a record over those of a row. -/
def update (store : Store) (id : String) (input : Record) : Except AppError Record × Store :=
  match store.position? id, store.row? id with
  | some index, some row =>
    let record := Entries.merge row input
    match store.entity.validate record with
    | .ok () => (.ok record, { store with rows := store.rows.set index record })
    | .error error => (.error error, store)
  | _, _ => (.error (.noRow store.entity.id id), store)

/-- Removes a row. -/
def delete (store : Store) (id : String) : Except AppError Record × Store :=
  match store.position? id, store.row? id with
  | some index, some row => (.ok row, { store with rows := store.rows.eraseIdx index })
  | _, _ => (.error (.noRow store.entity.id id), store)

end Store

/-- A request to a store. -/
inductive StoreRequest where
  | list
  | read (id : String)
  | create (input : Record)
  | update (id : String) (input : Record)
  | delete (id : String)
  deriving DecidableEq, Repr

/-- The action that a request performs. -/
def StoreRequest.action : StoreRequest → Action
  | .list => .list
  | .read _ => .read
  | .create _ => .create
  | .update _ _ => .update
  | .delete _ => .delete

/-- The rows that answer a request. -/
inductive StoreReply where
  | rows (rows : List Record)
  | row (row : Record)
  deriving DecidableEq, Repr

namespace Store

/-- The answer to a request, and the store it leaves. -/
def run (store : Store) : StoreRequest → Except AppError StoreReply × Store
  | .list => (.ok (.rows store.rows), store)
  | .read id => ((store.read id).map .row, store)
  | .create input => let (result, store) := store.create input; (result.map .row, store)
  | .update id input => let (result, store) := store.update id input; (result.map .row, store)
  | .delete id => let (result, store) := store.delete id; (result.map .row, store)

end Store

end CrudUi
