import CrudUi.Server
import Mathlib.Data.List.Basic

/-!
# Isolation of entities

The requests that a server gets may be addressed to different entities, in any order.  A request
reaches one store at most, the one of its entity: it leaves the other stores as they are
(`Server.store?_respond_of_ne`), and its answer and what becomes of its own store depend on that
store alone (`Server.respond_congr`).  By induction on the requests, an entity is served along a run
as if the requests to it were the only ones (`Server.served_alone`).

## Main definitions

* `Request.entity?` : the entity that a request is addressed to.
* `Server.requestsTo`, `Server.repliesTo` : the requests that are addressed to an entity, and their
  answers along a run.
-/

namespace CrudUi

/-- The entity to whose rows a request is addressed. -/
def Request.entity? (request : Request) : Option String :=
  match Route.find? request.method request.path with
  | some (.rows entity _) => some entity
  | _ => none

variable {entity other : String}

/-! ### One request -/

namespace Backend

variable {backend : Backend}

theorem store?_run_of_ne (hne : entity ≠ other) (request : StoreRequest) :
    (backend.run entity request).2.store? other = backend.store? other := by
  unfold run
  split
  · simp only [store?, Ascending.Table.lookup_insert, if_neg hne]
  · rfl

theorem run_of_store? {store : Store} (h : backend.store? entity = .ok store)
    (request : StoreRequest) :
    (backend.run entity request).1 = (store.run request).1 ∧
      (backend.run entity request).2.store? entity = .ok (store.run request).2 := by
  rw [run, h]
  exact ⟨rfl, by simp only [store?, Ascending.Table.lookup_insert, if_true]⟩

end Backend

namespace Server

variable {server server' : Server} {request : Request}

/-- No request locks the backend for good. -/
theorem poisoned_dispatch (server : Server) (entity : String) (request : StoreRequest) :
    (server.dispatch entity request).2.poisoned = server.poisoned := by
  unfold dispatch
  repeat' split
  all_goals rfl

theorem poisoned_respond (server : Server) (request : Request) :
    (server.respond request).2.poisoned = server.poisoned := by
  unfold respond
  repeat' split
  all_goals first | rfl | exact poisoned_dispatch ..

@[simp] theorem ui_dispatch (server : Server) (entity : String) (request : StoreRequest) :
    (server.dispatch entity request).2.ui = server.ui := by
  unfold dispatch
  repeat' split
  all_goals rfl

theorem ui_respond (server : Server) (request : Request) :
    (server.respond request).2.ui = server.ui := by
  unfold respond
  repeat' split
  all_goals first | rfl | exact ui_dispatch ..

theorem store?_dispatch_of_ne (hne : entity ≠ other) (request : StoreRequest) :
    (server.dispatch entity request).2.backend.store? other = server.backend.store? other := by
  have hrun := server.backend.store?_run_of_ne hne request
  unfold dispatch
  split
  · rfl
  · split
    · rfl
    · split
      · split <;> rename_i hresult <;> rwa [hresult] at hrun
      · rfl

/-- A request leaves the stores of the entities that it is not addressed to. -/
theorem store?_respond_of_ne (h : request.entity? ≠ some entity) :
    (server.respond request).2.backend.store? entity = server.backend.store? entity := by
  unfold Request.entity? at h
  unfold respond
  split <;> rename_i hroute <;> simp only [hroute] at h
  · rfl
  · rfl
  · have hne : _ ≠ entity := fun heq => h (congrArg some heq)
    split
    · split
      · exact store?_dispatch_of_ne hne _
      · rfl
    · exact store?_dispatch_of_ne hne _

/-- A request that a store supports is answered by the store, which is then put back. -/
theorem dispatch_of_supports {store : Store} (hopen : server.poisoned = false)
    (hstore : server.backend.store? entity = .ok store)
    {request : StoreRequest} (hsupports : store.entity.supports request.action) :
    (server.dispatch entity request).1 = (match (store.run request).1 with
      | .ok reply => ⟨if request.action = .create then .created else .ok, some reply.toJson⟩
      | .error error => .ofError error) ∧
      (server.dispatch entity request).2.backend.store? entity = .ok (store.run request).2 := by
  have hrun := server.backend.run_of_store? hstore request
  rw [dispatch, hopen, if_neg Bool.false_ne_true, hstore]
  simp only [if_pos hsupports]
  rw [← hrun.1]
  split <;> rename_i hresult <;> rw [hresult] at hrun <;> exact ⟨by rw [hresult], hrun.2⟩

/-- What a request to an entity is answered, and what becomes of the store of the entity, depend on
this store only. -/
theorem dispatch_congr (hpoisoned : server.poisoned = server'.poisoned)
    (h : server.backend.store? entity = server'.backend.store? entity)
    (request : StoreRequest) :
    (server.dispatch entity request).1 = (server'.dispatch entity request).1 ∧
      (server.dispatch entity request).2.backend.store? entity =
        (server'.dispatch entity request).2.backend.store? entity := by
  cases hopen : server.poisoned with
  | true => simp [dispatch, hopen, ← hpoisoned, h]
  | false =>
    have hopen' := hpoisoned.symm.trans hopen
    cases hstore : server.backend.store? entity with
    | error error =>
      have hstore' := h.symm.trans hstore
      simp [dispatch, hopen, hopen', hstore, hstore']
    | ok store =>
      have hstore' := h.symm.trans hstore
      by_cases hsupports : store.entity.supports request.action
      · have hreached := dispatch_of_supports hopen hstore hsupports
        have hreached' := dispatch_of_supports hopen' hstore' hsupports
        exact ⟨hreached.1.trans hreached'.1.symm, hreached.2.trans hreached'.2.symm⟩
      · simp [dispatch, hopen, hopen', hstore, hstore', hsupports]

theorem respond_congr (hentity : request.entity? = some entity)
    (hpoisoned : server.poisoned = server'.poisoned)
    (h : server.backend.store? entity = server'.backend.store? entity) :
    (server.respond request).1 = (server'.respond request).1 ∧
      (server.respond request).2.backend.store? entity =
        (server'.respond request).2.backend.store? entity := by
  unfold Request.entity? at hentity
  split at hentity
  · rename_i hroute
    obtain rfl := Option.some.inj hentity
    simp only [respond, hroute]
    split
    · split
      · exact dispatch_congr hpoisoned h _
      · exact ⟨rfl, h⟩
    · exact dispatch_congr hpoisoned h _
  · cases hentity

/-! ### Runs -/

/-- The requests that are addressed to an entity. -/
def requestsTo (entity : String) (requests : List Request) : List Request :=
  requests.filter (·.entity? = some entity)

/-- The answers along a run to the requests that are addressed to an entity. -/
def repliesTo (server : Server) (entity : String) (requests : List Request) : List Reply :=
  ((requests.zip (server.respondAll requests).1).filter fun answered =>
    answered.1.entity? = some entity).map Prod.snd

theorem respondAll_cons (server : Server) (request : Request) (rest : List Request) :
    server.respondAll (request :: rest) =
      ((server.respond request).1 :: ((server.respond request).2.respondAll rest).1,
        ((server.respond request).2.respondAll rest).2) := rfl

theorem repliesTo_cons (server : Server) (request : Request) (rest : List Request) :
    server.repliesTo entity (request :: rest) =
      if request.entity? = some entity then
        (server.respond request).1 :: (server.respond request).2.repliesTo entity rest
      else (server.respond request).2.repliesTo entity rest := by
  simp only [repliesTo, respondAll_cons, List.zip_cons_cons, List.filter_cons, decide_eq_true_eq]
  split <;> rfl

theorem length_respondAll (server : Server) (requests : List Request) :
    (server.respondAll requests).1.length = requests.length := by
  induction requests generalizing server with
  | nil => rfl
  | cons request rest ih => simp [respondAll_cons, ih]

theorem ui_respondAll (server : Server) (requests : List Request) :
    (server.respondAll requests).2.ui = server.ui := by
  induction requests generalizing server with
  | nil => rfl
  | cons request rest ih => rw [respondAll_cons, ih, ui_respond]

/-- The requests to an entity are served alike by two servers that agree on its store, whatever
else the first server is asked in between. -/
theorem respondAll_congr (hpoisoned : server.poisoned = server'.poisoned)
    (h : server.backend.store? entity = server'.backend.store? entity)
    (requests : List Request) :
    server.repliesTo entity requests = (server'.respondAll (requestsTo entity requests)).1 ∧
      (server.respondAll requests).2.backend.store? entity =
        (server'.respondAll (requestsTo entity requests)).2.backend.store? entity := by
  induction requests generalizing server server' with
  | nil => exact ⟨rfl, h⟩
  | cons request rest ih =>
    rw [repliesTo_cons, respondAll_cons, requestsTo]
    by_cases hentity : request.entity? = some entity
    · obtain ⟨hreply, hafter⟩ := respond_congr hentity hpoisoned h
      have hnext := (poisoned_respond server request).trans
        (hpoisoned.trans (poisoned_respond server' request).symm)
      obtain ⟨hreplies, hstore⟩ := ih hnext hafter
      rw [List.filter_cons_of_pos (by simpa using hentity), respondAll_cons, if_pos hentity, hreply,
        hreplies]
      exact ⟨rfl, hstore⟩
    · rw [List.filter_cons_of_neg (by simpa using hentity), if_neg hentity]
      exact ih ((poisoned_respond server request).trans hpoisoned)
        ((store?_respond_of_ne hentity).trans h)

theorem respond_of_route_uiSchema (h : Route.find? request.method request.path = some .uiSchema) :
    server.respond request = (⟨.ok, some server.ui.toJson⟩, server) := by
  rw [respond, h]

/-- Every request for the schema is answered with the schema of the server. -/
theorem reply_uiSchema {requests : List Request} {reply : Reply}
    (hmem : (request, reply) ∈ requests.zip (server.respondAll requests).1)
    (hroute : Route.find? request.method request.path = some .uiSchema) :
    reply = ⟨.ok, some server.ui.toJson⟩ := by
  induction requests generalizing server with
  | nil => cases hmem
  | cons first rest ih =>
    rw [respondAll_cons, List.zip_cons_cons, List.mem_cons, Prod.mk.injEq] at hmem
    rcases hmem with ⟨rfl, rfl⟩ | hmem
    · rw [respond_of_route_uiSchema hroute]
    · rw [ih hmem, ui_respond]

/-- Whatever a server is asked in whatever order, every request is answered, an entity is served as
by a fresh server that gets the requests to this entity only, and the schema stays the same. -/
theorem served_alone (ui : UiSchema) (count : Nat) (requests : List Request) :
    ((seeded ui count).respondAll requests).1.length = requests.length ∧
      (∀ entity : String,
        (seeded ui count).repliesTo entity requests =
            ((seeded ui count).respondAll (requestsTo entity requests)).1 ∧
          ((seeded ui count).respondAll requests).2.backend.store? entity =
            ((seeded ui count).respondAll (requestsTo entity requests)).2.backend.store? entity) ∧
      ((seeded ui count).respondAll requests).2.ui = ui ∧
      ∀ answered ∈ requests.zip ((seeded ui count).respondAll requests).1,
        Route.find? answered.1.method answered.1.path = some .uiSchema →
          answered.2 = ⟨.ok, some ui.toJson⟩ :=
  ⟨length_respondAll _ _, fun _ => respondAll_congr rfl rfl requests,
    ui_respondAll _ _, fun _ hmem hroute => reply_uiSchema hmem hroute⟩

end Server

end CrudUi
