import CrudUi.Proofs.Entries.Values
import CrudUi.Proofs.Server.Isolation
import CrudUi.Proofs.Store.Refusals

/-!
# The statuses of answers

Whatever a server has been asked, its stores are those of the entities of its schema
(`Server.Serves`), and the status of the next answer tells the first reason for which the request is
refused, if there is one: the body, the entity, the action, the row, the record
(`Server.judges_respond`).  The rows of a store are changed only by requests that write and succeed.

The errors of a store have one of two kinds, by which it tells a row that is not there from a record
that must not be written (`Store.kind_of_run`), so none of them is a failure of the server.  It fails
only if its backend is locked for good (`Server.status_respond_eq_internalServerError_iff`), and no
request does that.

## Main definitions

* `Request.record?` : the object in the body of a request.
* `Store.Lacks`, `Store.Rejects` : what a store has against an operation.
* `Server.Judges` : a status tells what there is against a request.
-/

namespace CrudUi

/-- The object in the body of a request. -/
def Request.record? (request : Request) : Option Record :=
  match request.body.map Json.parse with
  | some (.ok (.object record)) => some record
  | _ => none

/-- The record that a request brings: the empty one, if its body is no object. -/
def Request.input (request : Request) : Record :=
  request.record?.getD []

/-- The method of the requests for an operation. -/
def RowOperation.method : RowOperation → String
  | .list | .read _ => "GET"
  | .create => "POST"
  | .update _ => "PATCH"
  | .delete _ => "DELETE"

theorem Route.method_eq_of_find? {method path name : String} {operation : RowOperation}
    (h : find? method path = some (.rows name operation)) : method = operation.method := by
  obtain ⟨segments, -, h⟩ := Option.bind_eq_some_iff.mp h
  split at h
  · cases h
  · split at h <;> cases h <;> rfl

theorem Request.exists_route_of_entity? {request : Request} {name : String}
    (h : request.entity? = some name) :
    ∃ operation, Route.find? request.method request.path = some (.rows name operation) := by
  unfold entity? at h
  split at h
  · rename_i operation hroute
    exact ⟨operation, Option.some.inj h ▸ hroute⟩
  · cases h

theorem RowOperation.readsBody_iff (operation : RowOperation) :
    operation.readsBody = true ↔ operation.method = "POST" ∨ operation.method = "PATCH" := by
  cases operation <;> simp [readsBody, method]

/-! ### What a store has against an operation -/

namespace Store

variable {store : Store} {input : Record} {operation : RowOperation}

/-- An operation is about a row that is not there. -/
def Lacks (store : Store) : RowOperation → Prop
  | .read id | .update id | .delete id => id ∉ store.ids
  | .list | .create => False

/-- A record must not be written: a new one, with the key that it is given, is invalid or bears the
id of another row; the row that an update leaves is invalid. -/
def Rejects (store : Store) (input : Record) : RowOperation → Prop
  | .create => store.entity.validate (store.assignKey input).1 ≠ .ok () ∨
      store.entity.rowId (store.assignKey input).1 store.rows.length ∈ store.ids
  | .update id => ∃ row, store.row? id = some row ∧
      store.entity.validate (Entries.merge row input) ≠ .ok ()
  | .list | .read _ | .delete _ => False

/-- A store refuses what is about a row that is not there and what must not be written, and tells
the two apart by the kinds of its errors. -/
inductive Verdict (store : Store) (input : Record) (operation : RowOperation) :
    Except AppError StoreReply → Prop
  | granted {reply : StoreReply} (hlacks : ¬ store.Lacks operation)
      (hrejects : ¬ store.Rejects input operation) : Verdict store input operation (.ok reply)
  | lacking {error : AppError} (hkind : error.kind = .notFound) (hlacks : store.Lacks operation)
      (hrejects : ¬ store.Rejects input operation) : Verdict store input operation (.error error)
  | rejected {error : AppError} (hkind : error.kind = .validation)
      (hlacks : ¬ store.Lacks operation) (hrejects : store.Rejects input operation) :
      Verdict store input operation (.error error)

theorem kind_of_validate {entity : Entity} {record : Record} {error : AppError}
    (h : entity.validate record = .error error) : error.kind = .validation := by
  rw [Entity.validate] at h
  split at h <;> cases h
  rfl

theorem kind_of_checkNew {record : Record} {error : AppError}
    (h : store.checkNew record = .error error) : error.kind = .validation := by
  rw [checkNew] at h
  cases hvalid : store.entity.validate record with
  | error reason =>
    obtain rfl : reason = error := by simpa [hvalid, bind, Except.bind] using h
    exact kind_of_validate hvalid
  | ok =>
    simp only [hvalid, bind, Except.bind] at h
    split at h <;> cases h
    rfl

theorem rejects_create_iff :
    store.Rejects input .create ↔ store.checkNew (store.assignKey input).1 ≠ .ok () := by
  rw [Ne, checkNew_eq_ok_iff, not_and_or, not_not]
  rfl

theorem rejects_update_iff {id : String} {index : ℕ} {row : Record}
    (hposition : store.position? id = some index) (hrow : store.rows[index]? = some row) :
    store.Rejects input (.update id) ↔
      store.entity.validate (Entries.merge row input) ≠ .ok () := by
  simp [Rejects, row?_eq hposition hrow]

/-- A record that is not there cannot be rejected. -/
theorem not_rejects_of_lacks (h : store.Lacks operation) : ¬ store.Rejects input operation := by
  cases operation with
  | update id =>
    rintro ⟨row, hrow, -⟩
    rw [row?, position?_eq_none_iff.mpr h] at hrow
    cases hrow
  | create => exact h.elim
  | list | read | delete => exact id

theorem verdict_create (store : Store) (input : Record) :
    store.Verdict input .create (store.run (.create input)).1 := by
  simp only [run, create_eq]
  cases hcheck : store.checkNew (store.assignKey input).1 with
  | ok => exact .granted id (by simp [rejects_create_iff, hcheck])
  | error error =>
    exact .rejected (kind_of_checkNew hcheck) id (by simp [rejects_create_iff, hcheck])

theorem verdict_update (store : Store) (id : String) (input : Record) :
    store.Verdict input (.update id) (store.run (.update id input)).1 := by
  cases hposition : store.position? id with
  | none =>
    have hlacks : store.Lacks (.update id) := position?_eq_none_iff.mp hposition
    rw [run, update_of_position?_eq_none hposition]
    exact .lacking rfl hlacks (not_rejects_of_lacks hlacks)
  | some index =>
    obtain ⟨row, hrow, -⟩ := exists_row_of_position? hposition
    have hlacks : ¬ store.Lacks (.update id) := fun h => by
      simp [position?_eq_none_iff.mpr h] at hposition
    simp only [run, update_eq hposition hrow]
    cases hvalid : store.entity.validate (Entries.merge row input) with
    | ok => exact .granted hlacks (by simp [rejects_update_iff hposition hrow, hvalid])
    | error error =>
      exact .rejected (kind_of_validate hvalid) hlacks
        (by simp [rejects_update_iff hposition hrow, hvalid])

/-- Of a store that answers a request with the row of an id. -/
theorem verdict_of_row (id : String) {result : Except AppError StoreReply}
    (hlacks : store.Lacks operation ↔ id ∉ store.ids) (hrejects : ¬ store.Rejects input operation)
    (hnone : store.position? id = none → result = .error (.noRow store.entity.id id))
    (hsome : ∀ index row, store.position? id = some index → store.rows[index]? = some row →
      result = .ok (.row row)) : store.Verdict input operation result := by
  cases hposition : store.position? id with
  | none =>
    rw [hnone hposition]
    exact .lacking rfl (hlacks.mpr (position?_eq_none_iff.mp hposition)) hrejects
  | some index =>
    obtain ⟨row, hrow, -⟩ := exists_row_of_position? hposition
    rw [hsome index row hposition hrow]
    refine .granted (fun h => ?_) hrejects
    simp [position?_eq_none_iff.mpr (hlacks.mp h)] at hposition

theorem verdict_run (store : Store) (input : Record) (operation : RowOperation) :
    store.Verdict input operation (store.run (operation.storeRequest input)).1 := by
  cases operation with
  | list => exact .granted id id
  | create => exact store.verdict_create input
  | update id => exact store.verdict_update id input
  | read id =>
    refine verdict_of_row id Iff.rfl not_false (fun hposition => ?_)
      fun index row hposition hrow => ?_
    · simp [RowOperation.storeRequest, run, read, row?, hposition, Except.map]
    · simp [RowOperation.storeRequest, run, read_eq hposition hrow, Except.map]
  | delete id =>
    refine verdict_of_row id Iff.rfl not_false (fun hposition => ?_)
      fun index row hposition hrow => ?_
    · simp [RowOperation.storeRequest, run, delete_of_position?_eq_none hposition, Except.map]
    · simp [RowOperation.storeRequest, run, delete_eq hposition hrow, Except.map]

/-- The errors of a store have one of two kinds: that nothing is found comes only of operations on
one row, and that a record is invalid only of those that write one. -/
theorem kind_of_run {error : AppError}
    (h : (store.run (operation.storeRequest input)).1 = .error error) :
    error.kind = .notFound ∧ store.Lacks operation ∨
      error.kind = .validation ∧ store.Rejects input operation := by
  have hverdict := store.verdict_run input operation
  rw [h] at hverdict
  cases hverdict with
  | lacking hkind hlacks => exact .inl ⟨hkind, hlacks⟩
  | rejected hkind _ hrejects => exact .inr ⟨hkind, hrejects⟩

/-- The status of the answer of a store. -/
structure Answers (store : Store) (input : Record) (operation : RowOperation) (status : Status) :
    Prop where
  notFound_iff : status = .notFound ↔ store.Lacks operation
  unprocessable_iff : status = .unprocessable ↔ store.Rejects input operation
  eq_of_granted : ¬ store.Lacks operation → ¬ store.Rejects input operation →
    status = if operation.method = "POST" then .created else .ok

end Store

namespace Server

variable {server : Server} {request : Request} {name : String} {operation : RowOperation}

/-! ### The operation of a request -/

theorem readRecord_of_record? {record : Record} (h : request.record? = some record) :
    readRecord request.body = .ok record := by
  unfold Request.record? at h
  split at h
  · rename_i hbody
    rw [readRecord, hbody, Option.some.inj h]
  · cases h

theorem readRecord_of_record?_eq_none (h : request.record? = none) :
    ∃ reply, readRecord request.body = .error reply ∧ reply.status = .badRequest := by
  unfold readRecord
  split
  · rename_i record hbody
    simp [Request.record?, hbody] at h
  all_goals exact ⟨_, rfl, rfl⟩

/-- A request to rows is refused for its body, or passed on to the store of the entity. -/
theorem respond_cases
    (hroute : Route.find? request.method request.path = some (.rows name operation))
    (server : Server) :
    operation.readsBody = true ∧ request.record? = none ∧
        (server.respond request).1.status = .badRequest ∧ (server.respond request).2 = server ∨
      ¬ (operation.readsBody = true ∧ request.record? = none) ∧
        server.respond request = server.dispatch name (operation.storeRequest request.input) := by
  cases hreads : operation.readsBody with
  | false =>
    have hinput : operation.storeRequest request.input = operation.storeRequest [] := by
      cases operation <;> first | rfl | cases hreads
    exact .inr ⟨by simp, by simp [respond, hroute, hreads, hinput]⟩
  | true =>
    cases hrecord : request.record? with
    | none =>
      obtain ⟨reply, hreply, hstatus⟩ := readRecord_of_record?_eq_none hrecord
      exact .inl ⟨rfl, rfl, by simp [respond, hroute, hreads, hreply, hstatus],
        by simp [respond, hroute, hreads, hreply]⟩
    | some record =>
      refine .inr ⟨by simp, ?_⟩
      simp [respond, hroute, hreads, readRecord_of_record? hrecord, Request.input, hrecord]

/-! ### What becomes of a store -/

/-- A request that is passed on leaves the store of the entity as it is, or the store carries it out
and the answer tells whether it is granted. -/
theorem store?_dispatch_cases (server : Server) (name : String) (request : StoreRequest) :
    (server.dispatch name request).2.backend.store? name = server.backend.store? name ∨
      ∃ store : Store, server.backend.store? name = .ok store ∧
        (server.dispatch name request).2.backend.store? name = .ok (store.run request).2 ∧
        ((server.dispatch name request).1.status.isSuccess = false →
          ∃ error, (store.run request).1 = .error error) := by
  cases hopen : server.poisoned with
  | true => exact .inl (by simp [dispatch, hopen])
  | false =>
    cases hstore : server.backend.store? name with
    | error error => exact .inl (by simp [dispatch, hopen, hstore])
    | ok store =>
      by_cases hsupports : store.entity.supports request.action = true
      · obtain ⟨hreply, hafter⟩ := dispatch_of_supports hopen hstore hsupports
        refine .inr ⟨store, rfl, hafter, fun hfails => ?_⟩
        rw [hreply] at hfails
        split at hfails
        · split at hfails <;> cases hfails
        · exact ⟨_, ‹_›⟩
      · exact .inl (by simp [dispatch, hopen, hstore, hsupports])

/-- A request leaves the store of an entity as it is, or the store carries out an operation, and the
answer tells whether it is granted. -/
theorem store?_respond_cases (server : Server) (request : Request) (name : String) :
    (server.respond request).2.backend.store? name = server.backend.store? name ∨
      ∃ (store : Store) (operation : RowOperation), server.backend.store? name = .ok store ∧
        request.method = operation.method ∧
        (server.respond request).2.backend.store? name =
          .ok (store.run (operation.storeRequest request.input)).2 ∧
        ((server.respond request).1.status.isSuccess = false →
          ∃ error, (store.run (operation.storeRequest request.input)).1 = .error error) := by
  by_cases hentity : request.entity? = some name
  · obtain ⟨operation, hroute⟩ := Request.exists_route_of_entity? hentity
    rcases respond_cases hroute server with ⟨-, -, -, hsame⟩ | ⟨-, hrespond⟩
    · exact .inl (by rw [hsame])
    · rw [hrespond]
      exact (store?_dispatch_cases server name _).imp_right fun ⟨store, hstore, hafter, hfails⟩ =>
        ⟨store, operation, hstore, Route.method_eq_of_find? hroute, hafter, hfails⟩
  · exact .inl (store?_respond_of_ne hentity)

/-- The rows of an entity. -/
def rows? (server : Server) (name : String) : Option (List Record) :=
  (server.backend.store? name).toOption.map Store.rows

/-- The stores of a server are those of the entities of its schema. -/
def Serves (server : Server) : Prop :=
  ∀ name, (server.backend.store? name).toOption.map Store.entity = server.ui.entities.lookup name

theorem serves_seeded (ui : UiSchema) (count : ℕ) : (seeded ui count).Serves := by
  intro name
  have hlookup := Entries.lookup_mapValues (Store.seeded · count) name ui.entities
  simp only [seeded, Backend.seeded, Backend.store?]
  rw [hlookup]
  cases ui.entities.lookup name <;> rfl

/-- No request gives an entity another store, or takes its store away. -/
theorem Serves.respond (h : server.Serves) (request : Request) :
    (server.respond request).2.Serves := by
  intro name
  rw [ui_respond, ← h name]
  rcases store?_respond_cases server request name with
    hsame | ⟨store, operation, hstore, -, hafter, -⟩
  · rw [hsame]
  · rw [hafter, hstore]
    exact congrArg some (Store.run_outcome store _).entity_eq

/-- The server that a run of requests leaves of one with sample rows. -/
def reached (ui : UiSchema) (count : ℕ) (requests : List Request) : Server :=
  ((seeded ui count).respondAll requests).2

theorem Serves.respondAll (h : server.Serves) (requests : List Request) :
    (server.respondAll requests).2.Serves := by
  induction requests generalizing server with
  | nil => exact h
  | cons request rest ih => exact ih (h.respond request)

/-- Rows change only where a request writes and succeeds. -/
theorem rows?_respond_eq (server : Server) {request : Request}
    (h : (server.respond request).1.status.isSuccess = true →
      request.method ∉ ["POST", "PATCH", "DELETE"]) (name : String) :
    (server.respond request).2.rows? name = server.rows? name := by
  unfold rows?
  rcases store?_respond_cases server request name with
    hsame | ⟨store, operation, hstore, hmethod, hafter, hfails⟩
  · rw [hsame]
  · rw [hafter, hstore]
    refine congrArg some ?_
    cases hsuccess : (server.respond request).1.status.isSuccess with
    | false =>
      obtain ⟨error, herror⟩ := hfails hsuccess
      exact Store.rows_run_of_refused herror
    | true =>
      have hreads := h hsuccess
      rw [hmethod] at hreads
      cases operation with
      | list | read => rfl
      | create | update | delete => exact absurd hreads (by simp [RowOperation.method])

/-! ### Statuses -/

/-- The status of the answer to a request that is passed on to the store of an entity. -/
structure Dispatches (server : Server) (name : String) (operation : RowOperation) (input : Record)
    (status : Status) : Prop where
  ne_badRequest : status ≠ .badRequest
  notFound_of_unknown : server.ui.entities.lookup name = none → status = .notFound
  methodNotAllowed_iff : ∀ entity, server.ui.entities.lookup name = some entity →
    (status = .methodNotAllowed ↔ entity.supports operation.action = false)
  answers : ∀ entity, server.ui.entities.lookup name = some entity →
    entity.supports operation.action = true → ∃ store, server.backend.store? name = .ok store ∧
      store.entity = entity ∧ store.Answers input operation status

/-- The status of the answer to a request to the rows of an entity. -/
structure Judges (server : Server) (request : Request) (name : String) (operation : RowOperation)
    (status : Status) : Prop where
  badRequest_iff : status = .badRequest ↔
    (request.method = "POST" ∨ request.method = "PATCH") ∧ request.record? = none
  dispatches : status ≠ .badRequest → server.Dispatches name operation request.input status

/-- The status for the result of an operation. -/
def statusOf (operation : RowOperation) : Except AppError StoreReply → Status
  | .ok _ => if operation.method = "POST" then .created else .ok
  | .error error => .ofKind error.kind

/-- The status tells what a store has against an operation. -/
theorem answers_of_verdict {store : Store} {input : Record}
    {result : Except AppError StoreReply} (h : store.Verdict input operation result) :
    store.Answers input operation (statusOf operation result) := by
  cases h with
  | granted hlacks hrejects =>
    simp only [statusOf]
    exact ⟨by split <;> simpa using hlacks, by split <;> simpa using hrejects, fun _ _ => rfl⟩
  | lacking hkind hlacks hrejects =>
    rw [statusOf, hkind]
    exact ⟨iff_of_true rfl hlacks, iff_of_false nofun hrejects, fun h => absurd hlacks h⟩
  | rejected hkind hlacks hrejects =>
    rw [statusOf, hkind]
    exact ⟨iff_of_false nofun hlacks, iff_of_true rfl hrejects, fun _ h => absurd hrejects h⟩

theorem statusOf_ne (operation : RowOperation) (result : Except AppError StoreReply) :
    statusOf operation result ≠ .badRequest ∧ statusOf operation result ≠ .methodNotAllowed := by
  unfold statusOf Status.ofKind
  split <;> split <;> exact ⟨nofun, nofun⟩

/-- No answer of a store is a failure of the server. -/
theorem statusOf_run_ne (store : Store) (operation : RowOperation) (input : Record) :
    statusOf operation (store.run (operation.storeRequest input)).1 ≠ .internalServerError := by
  cases hrun : (store.run (operation.storeRequest input)).1 with
  | ok reply =>
    rw [statusOf]
    split <;> exact nofun
  | error error =>
    rw [statusOf]
    rcases Store.kind_of_run hrun with ⟨hkind, -⟩ | ⟨hkind, -⟩ <;> rw [hkind] <;> exact nofun

/-! ### Requests that are passed on -/

theorem status_dispatch_of_poisoned (hpoisoned : server.poisoned = true) (request : StoreRequest) :
    (server.dispatch name request).1.status = .internalServerError := by
  rw [dispatch, if_pos hpoisoned]

section Open

variable (hopen : server.poisoned = false)
include hopen

theorem status_dispatch_of_unknown {error : AppError} (request : StoreRequest)
    (h : server.backend.store? name = .error error) :
    (server.dispatch name request).1.status = .notFound := by
  have herror : error = .noEntity name := by
    rw [Backend.store?] at h
    split at h <;> cases h
    rfl
  rw [dispatch, hopen, if_neg Bool.false_ne_true, h, herror]
  rfl

theorem status_dispatch_of_supports {store : Store} (input : Record)
    (hstore : server.backend.store? name = .ok store)
    (hsupports : store.entity.supports operation.action = true) :
    (server.dispatch name (operation.storeRequest input)).1.status =
      statusOf operation (store.run (operation.storeRequest input)).1 := by
  have haction := operation.action_storeRequest input
  rw [← haction] at hsupports
  rw [(dispatch_of_supports hopen hstore hsupports).1]
  cases (store.run (operation.storeRequest input)).1 with
  | error error => rfl
  | ok reply => cases operation <;> rfl

theorem status_dispatch_of_not_supports {store : Store} (input : Record)
    (hstore : server.backend.store? name = .ok store)
    (hsupports : store.entity.supports operation.action = false) :
    (server.dispatch name (operation.storeRequest input)).1.status = .methodNotAllowed := by
  simp [dispatch, hopen, hstore, operation.action_storeRequest, hsupports, Reply.refusal]

theorem dispatches_dispatch (h : server.Serves) (name : String) (operation : RowOperation)
    (input : Record) :
    server.Dispatches name operation input
      (server.dispatch name (operation.storeRequest input)).1.status := by
  have hentity := h name
  cases hstore : server.backend.store? name with
  | error error =>
    have hunknown : ∀ entity, server.ui.entities.lookup name ≠ some entity := by
      intro entity hknown
      rw [hstore, hknown] at hentity
      cases hentity
    rw [status_dispatch_of_unknown hopen _ hstore]
    exact ⟨nofun, fun _ => rfl, fun entity hknown => absurd hknown (hunknown entity),
      fun entity hknown => absurd hknown (hunknown entity)⟩
  | ok store =>
    have hknown : server.ui.entities.lookup name = some store.entity := by
      rw [← hentity, hstore]
      rfl
    cases hsupports : store.entity.supports operation.action with
    | false =>
      rw [status_dispatch_of_not_supports hopen input hstore hsupports]
      refine ⟨nofun, fun hunknown => ?_, fun entity hentity => ?_, fun entity hentity => ?_⟩
      · simp [hknown] at hunknown
      · obtain rfl := Option.some.inj (hknown.symm.trans hentity)
        exact iff_of_true rfl hsupports
      · obtain rfl := Option.some.inj (hknown.symm.trans hentity)
        exact fun hsupported => absurd (hsupported.symm.trans hsupports) nofun
    | true =>
      rw [status_dispatch_of_supports hopen input hstore hsupports]
      obtain ⟨hbad, hallowed⟩ := statusOf_ne operation (store.run (operation.storeRequest input)).1
      refine ⟨hbad, fun hunknown => ?_, fun entity hentity => ?_, fun entity hentity _ => ?_⟩
      · simp [hknown] at hunknown
      · obtain rfl := Option.some.inj (hknown.symm.trans hentity)
        exact iff_of_false hallowed (by simp [hsupports])
      · obtain rfl := Option.some.inj (hknown.symm.trans hentity)
        exact ⟨store, hstore, rfl, answers_of_verdict (store.verdict_run input operation)⟩

/-- The status of an answer tells the first reason for which a request to rows is refused. -/
theorem judges_respond (h : server.Serves)
    (hroute : Route.find? request.method request.path = some (.rows name operation)) :
    server.Judges request name operation (server.respond request).1.status := by
  have hbody : operation.readsBody = true ↔
      request.method = "POST" ∨ request.method = "PATCH" := by
    rw [operation.readsBody_iff, Route.method_eq_of_find? hroute]
  rcases respond_cases hroute server with ⟨hreads, hnone, hstatus, -⟩ | ⟨hgoes, hrespond⟩
  · exact ⟨iff_of_true hstatus ⟨hbody.mp hreads, hnone⟩, fun hne => absurd hstatus hne⟩
  · have hdispatches := dispatches_dispatch hopen h name operation request.input
    rw [hrespond]
    refine ⟨iff_of_false hdispatches.ne_badRequest ?_, fun _ => hdispatches⟩
    rwa [← hbody]

end Open

/-- A request that is passed on fails only at a backend that is locked for good. -/
theorem status_dispatch_eq_internalServerError_iff (server : Server) (name : String)
    (operation : RowOperation) (input : Record) :
    (server.dispatch name (operation.storeRequest input)).1.status = .internalServerError ↔
      server.poisoned = true := by
  cases hopen : server.poisoned with
  | true => exact iff_of_true (status_dispatch_of_poisoned hopen _) rfl
  | false =>
    refine iff_of_false ?_ Bool.false_ne_true
    cases hstore : server.backend.store? name with
    | error error =>
      rw [status_dispatch_of_unknown hopen _ hstore]
      exact nofun
    | ok store =>
      cases hsupports : store.entity.supports operation.action with
      | false =>
        rw [status_dispatch_of_not_supports hopen input hstore hsupports]
        exact nofun
      | true =>
        rw [status_dispatch_of_supports hopen input hstore hsupports]
        exact statusOf_run_ne store operation input

/-- A server fails exactly if its backend is locked for good and a request is passed on to it. -/
theorem status_respond_eq_internalServerError_iff (server : Server) (request : Request) :
    (server.respond request).1.status = .internalServerError ↔
      server.poisoned = true ∧ ∃ name operation,
        Route.find? request.method request.path = some (.rows name operation) ∧
          ¬ (operation.readsBody = true ∧ request.record? = none) := by
  cases hroute : Route.find? request.method request.path with
  | none =>
    rw [respond, hroute]
    exact iff_of_false (fun h => by cases h) (by simp)
  | some route =>
    cases route with
    | uiSchema =>
      rw [respond_of_route_uiSchema hroute]
      exact iff_of_false (fun h => by cases h) (by simp)
    | rows name operation =>
      rcases respond_cases hroute server with ⟨hreads, hnone, hstatus, -⟩ | ⟨hgoes, hrespond⟩
      · rw [hstatus]
        refine iff_of_false (fun h => by cases h) ?_
        rintro ⟨-, _, _, heq, hgoes⟩
        cases heq
        exact hgoes ⟨hreads, hnone⟩
      · rw [hrespond, status_dispatch_eq_internalServerError_iff]
        exact ⟨fun hpoisoned => ⟨hpoisoned, name, operation, rfl, hgoes⟩, And.left⟩

theorem code_eq_500_iff {status : Status} : status.code = 500 ↔ status = .internalServerError := by
  cases status <;> decide

theorem poisoned_respondAll (server : Server) (requests : List Request) :
    (server.respondAll requests).2.poisoned = server.poisoned := by
  induction requests generalizing server with
  | nil => rfl
  | cons request rest ih => rw [respondAll_cons, ih, poisoned_respond]

theorem poisoned_reached (ui : UiSchema) (count : ℕ) (requests : List Request) :
    (reached ui count requests).poisoned = false :=
  poisoned_respondAll _ _

/-- A server that is reached keeps its schema, its backend is not locked for good, and in its stores
ids lead to rows.  The answer to the next request to rows has the status that tells the first reason
against it, if there is one, which is never a failure of the server; and rows change only where a
request writes and succeeds. -/
theorem judges_respond_reached (ui : UiSchema) (count : ℕ) (requests : List Request)
    (request : Request) :
    (reached ui count requests).ui = ui ∧
    (reached ui count requests).poisoned = false ∧
    (∀ name store, (reached ui count requests).backend.store? name = .ok store →
      ∀ id index, store.position? id = some index → index < store.rows.length) ∧
    ((reached ui count requests).respond request).1.status.code ≠ 500 ∧
    (∀ name operation,
      Route.find? request.method request.path = some (.rows name operation) →
        (reached ui count requests).Judges request name operation
          ((reached ui count requests).respond request).1.status) ∧
    ((((reached ui count requests).respond request).1.status.isSuccess = true →
        request.method ∉ ["POST", "PATCH", "DELETE"]) →
      ∀ name, ((reached ui count requests).respond request).2.rows? name =
        (reached ui count requests).rows? name) := by
  have hopen := poisoned_reached ui count requests
  refine ⟨ui_respondAll _ _, hopen, fun name store _ id index hposition => ?_, ?_,
    fun name operation hroute => ?_, fun h => rows?_respond_eq _ h⟩
  · obtain ⟨row, hrow, -⟩ := Store.exists_row_of_position? hposition
    exact (List.getElem?_eq_some_iff.mp hrow).1
  · rw [Ne, code_eq_500_iff, status_respond_eq_internalServerError_iff, hopen]
    simp
  · exact judges_respond hopen ((serves_seeded ui count).respondAll requests) hroute

/-- The schema of an API that lists tickets and takes new ones. -/
def tickets : UiSchema :=
  { entities := [("Ticket", { Store.ticket with
      endpoints := { create := some ⟨"POST", "/tickets", none⟩
                     list := some ⟨"GET", "/tickets", none⟩ } })] }

theorem judges_respond_reached_tickets :
    Route.find? "DELETE" "/mock/Ticket/id-1" = some (.rows "Ticket" (.delete "id-1")) ∧
      ((reached tickets 2 [⟨"GET", "/mock/Ticket", none⟩]).respond
        ⟨"DELETE", "/mock/Ticket/id-1", none⟩).1.status = .methodNotAllowed ∧
      ((reached tickets 2 [⟨"GET", "/mock/Ticket", none⟩]).respond
        ⟨"DELETE", "/mock/Ticket/id-1", none⟩).2.rows? "Ticket" =
        (reached tickets 2 [⟨"GET", "/mock/Ticket", none⟩]).rows? "Ticket" := by
  have hroute : Route.find? "DELETE" "/mock/Ticket/id-1" =
      some (.rows "Ticket" (.delete "id-1")) := by decide +kernel
  obtain ⟨hui, -, -, -, hjudges, hrows⟩ := judges_respond_reached tickets 2
    [⟨"GET", "/mock/Ticket", none⟩] ⟨"DELETE", "/mock/Ticket/id-1", none⟩
  have hjudged := hjudges _ _ hroute
  have hbody := mt hjudged.badRequest_iff.mp (by decide)
  have hstatus := ((hjudged.dispatches hbody).methodNotAllowed_iff _ (by rw [hui]; rfl)).mpr rfl
  exact ⟨hroute, hstatus, hrows (by simp [hstatus, Status.isSuccess]) "Ticket"⟩

end Server

end CrudUi
