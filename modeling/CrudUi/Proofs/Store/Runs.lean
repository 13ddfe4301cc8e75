import CrudUi.Store
import Mathlib.Data.List.Induction

/-!
# Runs of requests

What a request is answered and what it does to a store is said once, by `Store.Step`.  Every request
is such a step (`Store.run_step`).  For the rows alone five cases are left (`Store.Outcome`): they
stay as they are, numbers are used up, a row is appended, written over or removed; and everything
that holds of the rows along a run follows from these.
-/

namespace CrudUi

namespace Entity

variable {entity : Entity}

theorem key?_eq {name : String} (hname : entity.primaryKey = some name) (record : Record) :
    entity.key? record = (record.lookup name).bind Json.string? := by
  simp [key?, hname]

theorem key?_withKey (hkey : entity.primaryKey.isSome) (record : Record) (key : String) :
    entity.key? (entity.withKey record key) = some ((entity.key? record).getD key) := by
  obtain ⟨name, hname⟩ := Option.isSome_iff_exists.mp hkey
  cases hfound : entity.key? record with
  | some found => simp [withKey, hname, hfound]
  | none =>
    simp [withKey, hname, hfound, key?_eq hname, Entries.lookup_insert, Json.string?]

/-- A record that was given a key holds it as a text, unless it held another text before. -/
theorem lookup_withKey_of_primaryKey {name : String} (hname : entity.primaryKey = some name)
    (record : Record) (key : String) :
    (entity.withKey record key).lookup name = some (.string ((entity.key? record).getD key)) := by
  have hheld := key?_withKey (Option.isSome_of_eq_some hname) record key
  rw [key?_eq hname] at hheld
  obtain ⟨value, hvalue, htext⟩ := Option.bind_eq_some_iff.mp hheld
  rw [hvalue]
  cases value with
  | string text => rw [← Option.some.inj htext]
  | null | bool | number | array | object => simp [Json.string?] at htext

theorem rowId_eq_of_key? {record : Record} {key : String} (h : entity.key? record = some key)
    (index : Nat) : entity.rowId record index = key := by
  simp [rowId, h]

end Entity

namespace Store

/-! ### Addressing rows -/

section Addressing

variable {store : Store} {id : String} {index : Nat} {row : Record}

theorem getElem?_ids (store : Store) (index : Nat) :
    store.ids[index]? = store.rows[index]?.map (store.entity.rowId · index) := by
  simp [ids]

theorem position?_eq_some_iff :
    store.position? id = some index ↔
      store.ids[index]? = some id ∧ ∀ earlier < index, store.ids[earlier]? ≠ some id := by
  simp only [position?, List.findIdx?_eq_some_iff_getElem, decide_eq_true_eq]
  constructor
  · rintro ⟨hlt, hid, hfirst⟩
    refine ⟨by rw [List.getElem?_eq_getElem hlt, hid], fun earlier he => ?_⟩
    rw [List.getElem?_eq_getElem (Nat.lt_trans he hlt)]
    exact fun h => hfirst earlier he (Option.some.inj h)
  · rintro ⟨hid, hfirst⟩
    obtain ⟨hlt, hid⟩ := List.getElem?_eq_some_iff.mp hid
    refine ⟨hlt, hid, fun earlier he h => hfirst earlier he ?_⟩
    rw [List.getElem?_eq_getElem (Nat.lt_trans he hlt), h]

theorem position?_eq_none_iff : store.position? id = none ↔ id ∉ store.ids := by
  simp only [position?, List.findIdx?_eq_none_iff, decide_eq_false_iff_not]
  exact ⟨fun h hid => h id hid rfl, fun h other hother heq => h (heq ▸ hother)⟩

/-- A place that an id leads to holds a row. -/
theorem exists_row_of_position? (h : store.position? id = some index) :
    ∃ row, store.rows[index]? = some row ∧ store.entity.rowId row index = id := by
  have hid := (position?_eq_some_iff.mp h).1
  rwa [getElem?_ids, Option.map_eq_some_iff] at hid

theorem row?_eq (h : store.position? id = some index) (hrow : store.rows[index]? = some row) :
    store.row? id = some row := by
  simp [row?, h, hrow]

theorem read_eq (h : store.position? id = some index) (hrow : store.rows[index]? = some row) :
    store.read id = .ok row := by
  simp [read, row?_eq h hrow]

theorem update_eq (h : store.position? id = some index) (hrow : store.rows[index]? = some row)
    (input : Record) :
    store.update id input =
      match store.entity.validate (Entries.merge row input) with
      | .ok () => (.ok (Entries.merge row input),
          { store with rows := store.rows.set index (Entries.merge row input) })
      | .error error => (.error error, store) := by
  cases hvalid : store.entity.validate (Entries.merge row input) <;>
    simp [update, h, row?_eq h hrow, hvalid]

theorem delete_eq (h : store.position? id = some index) (hrow : store.rows[index]? = some row) :
    store.delete id = (.ok row, { store with rows := store.rows.eraseIdx index }) := by
  simp [delete, h, row?_eq h hrow]

theorem update_of_position?_eq_none (h : store.position? id = none) (input : Record) :
    store.update id input = (.error (.noRow store.entity.id id), store) := by
  simp [update, h]

theorem delete_of_position?_eq_none (h : store.position? id = none) :
    store.delete id = (.error (.noRow store.entity.id id), store) := by
  simp [delete, h]

end Addressing

/-! ### Assigning keys -/

section Keys

variable (store : Store) (input : Record)

@[simp] theorem assignKey_entity : (store.assignKey input).2.entity = store.entity := by
  unfold assignKey
  split <;> rfl

@[simp] theorem assignKey_rows : (store.assignKey input).2.rows = store.rows := by
  unfold assignKey
  split <;> rfl

@[simp] theorem assignKey_ids : (store.assignKey input).2.ids = store.ids := by
  simp [ids]

theorem checkNew_assignKey (record : Record) :
    (store.assignKey input).2.checkNew record = store.checkNew record := by
  simp [checkNew]

theorem create_eq :
    store.create input =
      match store.checkNew (store.assignKey input).1 with
      | .ok () => (.ok (store.assignKey input).1, { (store.assignKey input).2 with
          rows := store.rows ++ [(store.assignKey input).1] })
      | .error error => (.error error, (store.assignKey input).2) := by
  have hcreate : store.create input =
      match (store.assignKey input).2.checkNew (store.assignKey input).1 with
      | .ok () => (.ok (store.assignKey input).1, { (store.assignKey input).2 with
          rows := (store.assignKey input).2.rows ++ [(store.assignKey input).1] })
      | .error error => (.error error, (store.assignKey input).2) := rfl
  rw [hcreate, checkNew_assignKey, assignKey_rows]

/-- A record that is to be created has a key, where its entity has one. -/
theorem isSome_key?_assignKey (hkey : store.entity.primaryKey.isSome) :
    (store.entity.key? (store.assignKey input).1).isSome := by
  unfold assignKey
  split
  · simp [allocate, Entity.key?_withKey hkey]
  · rename_i h
    simpa [hkey, Option.isSome_iff_ne_none] using h

end Keys

/-- A new record is accepted if it is valid and its id is free. -/
theorem checkNew_eq_ok_iff {store : Store} {record : Record} :
    store.checkNew record = .ok () ↔
      store.entity.validate record = .ok () ∧
        store.entity.rowId record store.rows.length ∉ store.ids := by
  unfold checkNew
  cases hvalid : store.entity.validate record with
  | error error => simp [bind, Except.bind]
  | ok =>
    by_cases hid : store.entity.rowId record store.rows.length ∈ store.ids <;>
      simp [bind, Except.bind, hid, throw, throwThe, MonadExceptOf.throw, pure, Except.pure]

/-! ### What a request can do -/

/-- The answer to a request, and the store that it leaves. -/
inductive Step (store : Store) : StoreRequest → Except AppError StoreReply → Store → Prop
  | listed : Step store .list (.ok (.rows store.rows)) store
  | read (id : String) : Step store (.read id) ((store.read id).map .row) store
  /-- A record is refused after a number was used up for it. -/
  | createRefused (input : Record) (error : AppError) :
      Step store (.create input) (.error error) (store.assignKey input).2
  /-- A record is appended. -/
  | created (input : Record)
      (hvalid : store.entity.validate (store.assignKey input).1 = .ok ())
      (hfree : store.entity.rowId (store.assignKey input).1 store.rows.length ∉ store.ids) :
      Step store (.create input) (.ok (.row (store.assignKey input).1))
        { (store.assignKey input).2 with rows := store.rows ++ [(store.assignKey input).1] }
  | updateRefused (id : String) (input : Record) (error : AppError) :
      Step store (.update id input) (.error error) store
  /-- A row is written over. -/
  | updated (id : String) (input : Record) (index : Nat) (row : Record)
      (hposition : store.position? id = some index) (hrow : store.rows[index]? = some row)
      (hvalid : store.entity.validate (Entries.merge row input) = .ok ()) :
      Step store (.update id input) (.ok (.row (Entries.merge row input)))
        { store with rows := store.rows.set index (Entries.merge row input) }
  | deleteRefused (id : String) (error : AppError) :
      Step store (.delete id) (.error error) store
  /-- A row is removed. -/
  | deleted (id : String) (index : Nat) (row : Record)
      (hposition : store.position? id = some index) (hrow : store.rows[index]? = some row) :
      Step store (.delete id) (.ok (.row row)) { store with rows := store.rows.eraseIdx index }

theorem run_step (store : Store) (request : StoreRequest) :
    store.Step request (store.run request).1 (store.run request).2 := by
  cases request with
  | list => exact .listed
  | read id => exact .read id
  | create input =>
    simp only [run, create_eq]
    cases hcheck : store.checkNew (store.assignKey input).1 with
    | error error => exact .createRefused input error
    | ok =>
      obtain ⟨hvalid, hfree⟩ := checkNew_eq_ok_iff.mp hcheck
      exact .created input hvalid hfree
  | update id input =>
    cases hposition : store.position? id with
    | none =>
      rw [run, update_of_position?_eq_none hposition]
      exact .updateRefused id input _
    | some index =>
      obtain ⟨row, hrow, -⟩ := exists_row_of_position? hposition
      simp only [run, update_eq hposition hrow]
      cases hvalid : store.entity.validate (Entries.merge row input) with
      | error error => exact .updateRefused id input error
      | ok => exact .updated id input index row hposition hrow hvalid
  | delete id =>
    cases hposition : store.position? id with
    | none =>
      rw [run, delete_of_position?_eq_none hposition]
      exact .deleteRefused id _
    | some index =>
      obtain ⟨row, hrow, -⟩ := exists_row_of_position? hposition
      rw [run, delete_eq hposition hrow]
      exact .deleted id index row hposition hrow

/-- The stores that a request can leave. -/
inductive Outcome (store : Store) : StoreRequest → Store → Prop
  /-- Nothing changes. -/
  | kept (request : StoreRequest) : Outcome store request store
  /-- A record is refused after a number was used up for it. -/
  | refused (input : Record) : Outcome store (.create input) (store.assignKey input).2
  /-- A record is appended. -/
  | created (input : Record)
      (hvalid : store.entity.validate (store.assignKey input).1 = .ok ())
      (hfree : store.entity.rowId (store.assignKey input).1 store.rows.length ∉ store.ids) :
      Outcome store (.create input)
        { (store.assignKey input).2 with rows := store.rows ++ [(store.assignKey input).1] }
  /-- A row is written over. -/
  | updated (id : String) (input : Record) (index : Nat) (row : Record)
      (hposition : store.position? id = some index) (hrow : store.rows[index]? = some row)
      (hvalid : store.entity.validate (Entries.merge row input) = .ok ()) :
      Outcome store (.update id input)
        { store with rows := store.rows.set index (Entries.merge row input) }
  /-- A row is removed. -/
  | deleted (id : String) (index : Nat) (row : Record)
      (hposition : store.position? id = some index) (hrow : store.rows[index]? = some row) :
      Outcome store (.delete id) { store with rows := store.rows.eraseIdx index }

theorem run_outcome (store : Store) (request : StoreRequest) :
    store.Outcome request (store.run request).2 := by
  have hstep := run_step store request
  generalize (store.run request).1 = answer, (store.run request).2 = next at hstep ⊢
  cases hstep with
  | listed | read | updateRefused | deleteRefused => exact .kept _
  | createRefused input => exact .refused input
  | created input hvalid hfree => exact .created input hvalid hfree
  | updated id input index row hposition hrow hvalid =>
    exact .updated id input index row hposition hrow hvalid
  | deleted id index row hposition hrow => exact .deleted id index row hposition hrow

theorem Outcome.entity_eq {store next : Store} {request : StoreRequest}
    (h : store.Outcome request next) : next.entity = store.entity := by
  cases h <;> simp

/-! ### Runs -/

/-- The store that requests leave, one after another. -/
def after (store : Store) (requests : List StoreRequest) : Store :=
  requests.foldl (fun store request => (store.run request).2) store

@[simp] theorem after_nil (store : Store) : store.after [] = store := rfl

@[simp] theorem after_append_singleton (store : Store) (requests : List StoreRequest)
    (request : StoreRequest) :
    store.after (requests ++ [request]) = ((store.after requests).run request).2 := by
  simp [after]

/-- What a store has and every outcome of the requests of a run keeps, the store has after it. -/
theorem after_induction_of_mem {motive : Store → Prop} {store : Store} {requests : List StoreRequest}
    (hstart : motive store)
    (hstep : ∀ {store next : Store} {request : StoreRequest}, request ∈ requests →
      store.Outcome request next → motive store → motive next) :
    motive (store.after requests) := by
  induction requests using List.reverseRecOn with
  | nil => exact hstart
  | append_singleton requests request ih =>
    rw [after_append_singleton]
    refine hstep (by simp) (run_outcome _ request) (ih fun hmem => ?_)
    exact hstep (List.mem_append_left _ hmem)

/-- What a store has and every outcome of a request keeps, the store has after any run. -/
theorem after_induction {motive : Store → Prop} {store : Store} (hstart : motive store)
    (hstep : ∀ {store next : Store} {request : StoreRequest},
      store.Outcome request next → motive store → motive next)
    (requests : List StoreRequest) : motive (store.after requests) :=
  after_induction_of_mem hstart fun _ => hstep

@[simp] theorem entity_after (store : Store) (requests : List StoreRequest) :
    (store.after requests).entity = store.entity :=
  after_induction (motive := fun reached => reached.entity = store.entity) rfl
    (fun houtcome ih => houtcome.entity_eq.trans ih) requests

end Store

end CrudUi
