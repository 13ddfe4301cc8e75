import CrudUi.Proofs.Store.Counter

/-!
# Removing rows

Deleting takes away the very row that reading the same id shows, and the rows behind it move up.
What becomes of the ids depends on what they are.

* With a primary key, the ids of rows that were created or are sample rows are texts of their own.
  Every other id still leads where it led, and the id itself leads nowhere, unless a second row had
  it.  Only sample rows can share an id, so where they do not, no rows do.
* Without a primary key the id of a row is its place, so each id from the deleted one on leads to
  the row behind the one it led to.

`Store.delete_frame` says this of all stores that requests without updates lead to.
-/

namespace CrudUi

namespace Entity

variable {entity : Entity}

/-- The id of a row by its place. -/
def placeId (entity : Entity) (place : Nat) : String :=
  entity.id ++ ":" ++ toString place

theorem placeId_injective (entity : Entity) : Function.Injective entity.placeId := fun _ _ h =>
  toString_nat_injective ((String.append_right_inj _).mp h)

theorem rowId_of_primaryKey_eq_none (h : entity.primaryKey = none) (record : Record)
    (index : Nat) : entity.rowId record index = entity.placeId index := by
  simp [rowId, key?, h, placeId]

theorem isSome_key?_sample (hkey : entity.primaryKey.isSome) (seed : Nat) :
    (entity.key? (entity.sample seed)).isSome := by
  rw [sample, key?_withKey hkey]
  rfl

end Entity

namespace Store

variable {store : Store} {id : String} {index : Nat} {row : Record}

theorem read_eq_ok_iff : store.read id = .ok row ↔ store.row? id = some row := by
  rw [read]
  cases store.row? id <;> simp

theorem read_eq_error_iff :
    store.read id = .error (.noRow store.entity.id id) ↔ store.row? id = none := by
  rw [read]
  cases store.row? id <;> simp

theorem row?_eq_none_iff : store.row? id = none ↔ id ∉ store.ids := by
  cases hposition : store.position? id with
  | none => exact iff_of_true (by simp [row?, hposition]) (position?_eq_none_iff.mp hposition)
  | some index =>
    obtain ⟨row, hrow, -⟩ := exists_row_of_position? hposition
    rw [row?_eq hposition hrow]
    exact iff_of_false (by simp)
      (not_not.mpr (List.mem_of_getElem? (position?_eq_some_iff.mp hposition).1))

/-- A row that was deleted is the one that is read. -/
theorem exists_of_delete_eq {next : Store} (h : store.delete id = (.ok row, next)) :
    ∃ index, store.position? id = some index ∧ store.rows[index]? = some row ∧
      next = { store with rows := store.rows.eraseIdx index } := by
  cases hposition : store.position? id with
  | none => simp [delete_of_position?_eq_none hposition] at h
  | some index =>
    obtain ⟨found, hfound, -⟩ := exists_row_of_position? hposition
    rw [delete_eq hposition hfound, Prod.mk.injEq, Except.ok.injEq] at h
    exact ⟨index, rfl, by rw [hfound, h.1], h.2.symm⟩

/-! ### Ids that are keys -/

/-- Every row holds a text under the primary key. -/
def Keyed (store : Store) : Prop :=
  ∀ row ∈ store.rows, (store.entity.key? row).isSome

namespace Keyed

theorem eraseIdx (h : store.Keyed) (index : Nat) :
    Keyed { store with rows := store.rows.eraseIdx index } :=
  fun row hrow => h row (List.eraseIdx_subset hrow)

/-- The row with an id is the first that holds it as its key. -/
theorem row?_eq_find? (h : store.Keyed) (id : String) :
    store.row? id = store.rows.find? fun row => store.entity.key? row = some id := by
  cases hposition : store.position? id with
  | none =>
    rw [row?_eq_none_iff.mpr (position?_eq_none_iff.mp hposition), eq_comm, List.find?_eq_none]
    intro row hrow hkey
    obtain ⟨index, hindex⟩ := List.getElem?_of_mem hrow
    exact position?_eq_none_iff.mp hposition
      (mem_ids_iff.mpr ⟨index, row, hindex, Entity.rowId_eq_of_key? (by simpa using hkey) index⟩)
  | some index =>
    have key?_of_rowId {row : Record} {place : Nat} (hrow : store.rows[place]? = some row) :
        store.entity.key? row = some (store.entity.rowId row place) := by
      obtain ⟨key, hkey⟩ := Option.isSome_iff_exists.mp (h row (List.mem_of_getElem? hrow))
      rw [hkey, Entity.rowId_eq_of_key? hkey]
    obtain ⟨row, hrow, hid⟩ := exists_row_of_position? hposition
    obtain ⟨hlt, hget⟩ := List.getElem?_eq_some_iff.mp hrow
    rw [row?_eq hposition hrow, eq_comm, List.find?_eq_some_iff_getElem]
    refine ⟨by simp [key?_of_rowId hrow, hid], index, hlt, hget, fun earlier hearlier => ?_⟩
    have hother := List.getElem?_eq_getElem (hearlier.trans hlt)
    have hne := (position?_eq_some_iff.mp hposition).2 earlier hearlier
    rw [getElem?_ids, hother] at hne
    simpa [key?_of_rowId hother] using hne

/-- Where ids are keys, removing a row takes its id away and leaves the others. -/
theorem ids_eraseIdx (h : store.Keyed) (index : Nat) :
    ids { store with rows := store.rows.eraseIdx index } = store.ids.eraseIdx index := by
  apply List.map_injective_iff.mpr (fun _ _ => Option.some.inj)
  rw [map_some_ids_of_isSome_key (h.eraseIdx index), ← List.eraseIdx_map, ← List.eraseIdx_map,
    map_some_ids_of_isSome_key h]

theorem row?_eraseIdx_of_ne (h : store.Keyed) (hrow : store.rows[index]? = some row)
    (hne : store.entity.key? row ≠ some id) :
    row? { store with rows := store.rows.eraseIdx index } id = store.row? id := by
  rw [h.row?_eq_find?, (h.eraseIdx index).row?_eq_find?]
  obtain ⟨hlt, rfl⟩ := List.getElem?_eq_some_iff.mp hrow
  conv_rhs => rw [← List.take_append_drop index store.rows, List.drop_eq_getElem_cons hlt]
  rw [List.eraseIdx_eq_take_drop_succ, List.find?_append, List.find?_append,
    List.find?_cons_of_neg (by simpa using hne)]

/-- An id leads nowhere once its row is removed, exactly if no second row had it. -/
theorem row?_eraseIdx_eq_none_iff (h : store.Keyed) (hposition : store.position? id = some index) :
    row? { store with rows := store.rows.eraseIdx index } id = none ↔ store.ids.count id = 1 := by
  obtain ⟨hlt, hget⟩ := List.getElem?_eq_some_iff.mp (position?_eq_some_iff.mp hposition).1
  have hcount := (List.getElem_cons_eraseIdx_perm hlt).count_eq id
  rw [hget, List.count_cons_self] at hcount
  rw [row?_eq_none_iff, h.ids_eraseIdx, ← List.count_eq_zero, ← hcount]
  omega

theorem seeded {entity : Entity} (hkey : entity.primaryKey.isSome) (count : Nat) :
    (seeded entity count).Keyed := by
  intro row hrow
  obtain ⟨seed, -, rfl⟩ := List.mem_map.mp hrow
  exact Entity.isSome_key?_sample hkey seed

theorem outcome (h : store.Keyed) (hkey : store.entity.primaryKey.isSome)
    {request : StoreRequest} (hrequest : request.action ≠ .update) {next : Store}
    (houtcome : store.Outcome request next) : next.Keyed := by
  cases houtcome with
  | kept => exact h
  | refused input => simpa [Keyed] using h
  | created input =>
    intro row hrow
    rw [assignKey_entity]
    rcases List.mem_append.mp hrow with hrow | hrow
    · exact h row hrow
    · rw [List.mem_singleton.mp hrow]
      exact isSome_key?_assignKey store input hkey
  | updated => exact absurd rfl hrequest
  | deleted id index => exact h.eraseIdx index

end Keyed

/-! ### Ids that are places -/

theorem row?_placeId (hkey : store.entity.primaryKey = none) (place : Nat) :
    store.row? (store.entity.placeId place) = store.rows[place]? := by
  have hids (place : Nat) : store.ids[place]? =
      store.rows[place]?.map fun _ => store.entity.placeId place := by
    simp only [getElem?_ids, Entity.rowId_of_primaryKey_eq_none hkey]
  cases hrow : store.rows[place]? with
  | some row =>
    have hposition : store.position? (store.entity.placeId place) = some place := by
      refine position?_eq_some_iff.mpr ⟨by simp [hids, hrow], fun earlier hearlier hid => ?_⟩
      rw [hids, Option.map_eq_some_iff] at hid
      obtain ⟨-, -, hid⟩ := hid
      exact hearlier.ne (store.entity.placeId_injective hid)
    exact row?_eq hposition hrow
  | none =>
    rw [row?_eq_none_iff, mem_ids_iff]
    rintro ⟨other, row, hother, hid⟩
    rw [Entity.rowId_of_primaryKey_eq_none hkey] at hid
    rw [store.entity.placeId_injective hid, hrow] at hother
    simp at hother

theorem row?_of_forall_ne_placeId (hkey : store.entity.primaryKey = none)
    (hid : ∀ place, id ≠ store.entity.placeId place) : store.row? id = none := by
  rw [row?_eq_none_iff, mem_ids_iff]
  rintro ⟨place, row, -, hrow⟩
  rw [Entity.rowId_of_primaryKey_eq_none hkey] at hrow
  exact hid place hrow.symm

theorem eq_placeId_of_position? (hkey : store.entity.primaryKey = none)
    (hposition : store.position? id = some index) : id = store.entity.placeId index := by
  obtain ⟨row, -, hid⟩ := exists_row_of_position? hposition
  rw [← hid, Entity.rowId_of_primaryKey_eq_none hkey]

/-- Where ids are places, those behind a removed row lead to the row behind. -/
theorem row?_eraseIdx_placeId (hkey : store.entity.primaryKey = none) (index place : Nat) :
    row? { store with rows := store.rows.eraseIdx index } (store.entity.placeId place) =
      store.row? (store.entity.placeId (if place < index then place else place + 1)) := by
  have hnext : (entity { store with rows := store.rows.eraseIdx index }).primaryKey = none := hkey
  refine (row?_placeId hnext place).trans ?_
  rw [row?_placeId hkey, List.getElem?_eraseIdx]
  split <;> rfl

/-! ### Deleting -/

theorem read_congr {next : Store} (hentity : next.entity = store.entity)
    (hrow : next.row? id = store.row? id) : next.read id = store.read id := by
  rw [read, read, hentity, hrow]

theorem keyed_after {entity : Entity} (hkey : entity.primaryKey.isSome) (count : Nat)
    {requests : List StoreRequest} (hrequests : ∀ request ∈ requests, request.action ≠ .update) :
    ((seeded entity count).after requests).Keyed := by
  refine (after_induction_of_mem (motive := fun reached => reached.entity = entity ∧ reached.Keyed)
    ⟨rfl, .seeded hkey count⟩ fun hmem houtcome ⟨hentity, hkeyed⟩ => ⟨?_, ?_⟩).2
  · rw [houtcome.entity_eq, hentity]
  · exact hkeyed.outcome (by rwa [hentity]) (hrequests _ hmem) houtcome

/-- Requests without updates keep the ids of keyed rows distinct. -/
theorem nodup_ids_after {entity : Entity} (hkey : entity.primaryKey.isSome) {count : Nat}
    {requests : List StoreRequest} (hrequests : ∀ request ∈ requests, request.action ≠ .update)
    (hnodup : (seeded entity count).ids.Nodup) : ((seeded entity count).after requests).ids.Nodup := by
  have hkeyed : (seeded entity count).Keyed := .seeded hkey count
  have hseeded : (seeded entity count).WellKeyed := by
    refine ⟨hkeyed, ?_⟩
    rw [← map_some_ids_of_isSome_key hkeyed]
    exact hnodup.map fun _ _ => Option.some.inj
  suffices h : ((seeded entity count).after requests).WellKeyed from h.nodup_ids
  induction requests using List.reverseRecOn with
  | nil => exact hseeded
  | append_singleton requests request ih =>
    have hdone := ih fun other hother => hrequests other (List.mem_append_left _ hother)
    rw [after_append_singleton, hdone.run_iff (by rwa [entity_after])]
    cases request with
    | update =>
      exact absurd rfl (hrequests _ (List.mem_append_right _ (List.mem_singleton_self _)))
    | list | read | create | delete => trivial

/-- In a store that requests without updates made from sample rows, deleting an id removes the row
that is read under it, and every other id that is a key leads where it led.  Ids that are places
lead to the row behind, from the removed row on. -/
theorem delete_frame {entity : Entity} {count : Nat} {requests : List StoreRequest}
    (hrequests : ∀ request ∈ requests, request.action ≠ .update) {next : Store}
    (hstore : (seeded entity count).after requests = store)
    (hdelete : store.delete id = (.ok row, next)) :
    store.read id = .ok row ∧
    ∃ index, store.rows[index]? = some row ∧
      next = { store with rows := store.rows.eraseIdx index } ∧
      (entity.primaryKey.isSome →
        (∀ other, other ≠ id → next.read other = store.read other) ∧
        (next.read id = .error (.noRow entity.id id) ↔ store.ids.count id = 1) ∧
        ((seeded entity count).ids.Nodup → store.ids.count id = 1)) ∧
      (entity.primaryKey = none →
        id = entity.placeId index ∧
        (∀ other, (∀ place, index ≤ place → other ≠ entity.placeId place) →
          next.read other = store.read other) ∧
        ∀ place, index ≤ place → ∀ behind, next.read (entity.placeId place) = .ok behind ↔
          store.read (entity.placeId (place + 1)) = .ok behind) := by
  obtain ⟨index, hposition, hrow, rfl⟩ := exists_of_delete_eq hdelete
  have hentity : store.entity = entity := by rw [← hstore, entity_after]; rfl
  have hid := (position?_eq_some_iff.mp hposition).1
  refine ⟨read_eq hposition hrow, index, hrow, rfl, fun hkey => ?_, fun hkey => ?_⟩
  · have hkeyed : store.Keyed := hstore ▸ keyed_after hkey count hrequests
    refine ⟨fun other hother => read_congr rfl (hkeyed.row?_eraseIdx_of_ne hrow ?_), ?_, ?_⟩
    · intro hkey
      rw [getElem?_ids, hrow, Option.map_some, Entity.rowId_eq_of_key? hkey] at hid
      exact hother (Option.some.inj hid)
    · rw [← hkeyed.row?_eraseIdx_eq_none_iff hposition, ← hentity]
      exact read_eq_error_iff
    · intro hnodup
      have hnodup := nodup_ids_after hkey hrequests hnodup
      rw [hstore] at hnodup
      exact List.count_eq_one_of_mem hnodup (List.mem_of_getElem? hid)
  · rw [← hentity] at hkey ⊢
    refine ⟨eq_placeId_of_position? hkey hposition, fun other hother => read_congr rfl ?_,
      fun place hplace behind => ?_⟩
    · by_cases hotherPlace : ∃ place, other = store.entity.placeId place
      · obtain ⟨place, rfl⟩ := hotherPlace
        have hlt : place < index := by
          by_contra! hle
          exact hother place hle rfl
        rw [row?_eraseIdx_placeId hkey, if_pos hlt]
      · push Not at hotherPlace
        rw [row?_of_forall_ne_placeId hkey hotherPlace]
        exact row?_of_forall_ne_placeId hkey hotherPlace
    · rw [read_eq_ok_iff, read_eq_ok_iff, row?_eraseIdx_placeId hkey, if_neg hplace.not_gt]

theorem delete_frame_ticket :
    (∀ request ∈ [StoreRequest.create []], request.action ≠ .update) ∧
      ((seeded ticket 2).after [.create []]).delete "3" =
        (.ok [("id", .string "3")], { seeded ticket 2 with nextId := 4 }) ∧
      read { seeded ticket 2 with nextId := 4 } "id-1" =
        ((seeded ticket 2).after [.create []]).read "id-1" ∧
      read { seeded ticket 2 with nextId := 4 } "3" = .error (.noRow "Ticket" "3") := by
  have hrequests : ∀ request ∈ [StoreRequest.create []], request.action ≠ .update := by decide
  have hdelete : ((seeded ticket 2).after [.create []]).delete "3" =
      (.ok [("id", .string "3")], { seeded ticket 2 with nextId := 4 }) := by decide
  obtain ⟨-, -, -, -, hkeyed, -⟩ := delete_frame hrequests rfl hdelete
  obtain ⟨hothers, hself, hcount⟩ := hkeyed rfl
  exact ⟨hrequests, hdelete, hothers _ (by decide), hself.mpr (hcount (by decide))⟩

/-- A ticket without a key is addressed by its place. -/
def keylessTicket : Entity :=
  { ticket with primaryKey := none }

/-- A ticket of which there is one only, by its key. -/
def goldenTicket : Entity :=
  { ticket with fields :=
      [{ name := "id", label := "Id", type := .string, required := false,
         enumValues := some ["golden"] }] }

/-- An id may lead to another row once its row was deleted: the row behind, if ids are places, and
another sample row with the same key. -/
theorem read_after_delete :
    (((seeded keylessTicket 2).delete "Ticket:0").1 = .ok (keylessTicket.sample 0) ∧
      ((seeded keylessTicket 2).delete "Ticket:0").2.read "Ticket:0" =
        .ok (keylessTicket.sample 1) ∧
      (seeded keylessTicket 2).read "Ticket:1" = .ok (keylessTicket.sample 1) ∧
      ((seeded keylessTicket 2).delete "Ticket:0").2.read "Ticket:1" =
        .error (.noRow "Ticket" "Ticket:1")) ∧
    ((seeded goldenTicket 2).delete "golden").1 = .ok (goldenTicket.sample 0) ∧
      ((seeded goldenTicket 2).delete "golden").2.read "golden" =
        .ok (goldenTicket.sample 1) := by
  decide

end Store

end CrudUi
