import CrudUi.Proofs.Store.Runs
import Mathlib.Data.List.Nodup

/-!
# Rows and their keys

A store is *well keyed* when each of its rows holds a text under the primary key and no two rows
hold the same.  Then every row is addressed by its key and by nothing else, and reading, updating
and deleting under that key hit the row (`Store.WellKeyed.addressed`).

Creating and deleting keep a store well keyed, whatever they are given.  An update need not: it may
write `null` over the key, or the key of another row, since only new records are checked for a key
that is taken (`taken_key_after_update`).  A run goes through well-keyed stores alone exactly if
each of its updates leaves a key that is its own (`wellKeyed_along_run_iff`).
-/

namespace CrudUi

namespace Store

/-- Every row holds a text under the primary key, and no two rows hold the same. -/
structure WellKeyed (store : Store) : Prop where
  isSome_key : ∀ row ∈ store.rows, (store.entity.key? row).isSome
  nodup_keys : (store.rows.map store.entity.key?).Nodup

/-- Reading, updating and deleting under an id hit one row. -/
structure Hits (store : Store) (id : String) (index : Nat) (row : Record) : Prop where
  read_eq : store.read id = .ok row
  update_eq : ∀ input, store.update id input =
    match store.entity.validate (Entries.merge row input) with
    | .ok () => (.ok (Entries.merge row input),
        { store with rows := store.rows.set index (Entries.merge row input) })
    | .error error => (.error error, store)
  delete_eq : store.delete id = (.ok row, { store with rows := store.rows.eraseIdx index })

/-- A place that an id leads to is hit by that id. -/
theorem hits_of_position? {store : Store} {id : String} {index : Nat} {row : Record}
    (h : store.position? id = some index) (hrow : store.rows[index]? = some row) :
    store.Hits id index row :=
  ⟨read_eq h hrow, update_eq h hrow, delete_eq h hrow⟩

/-- Where each row holds a text under the primary key, these are the ids. -/
theorem map_some_ids_of_isSome_key {store : Store}
    (h : ∀ row ∈ store.rows, (store.entity.key? row).isSome) :
    store.ids.map some = store.rows.map store.entity.key? := by
  apply List.ext_getElem?
  intro index
  rw [List.getElem?_map, getElem?_ids, List.getElem?_map, Option.map_map]
  refine Option.map_congr fun row hrow => ?_
  obtain ⟨key, hkey⟩ := Option.isSome_iff_exists.mp (h row (List.mem_of_getElem? hrow))
  rw [Function.comp_apply, Entity.rowId_eq_of_key? hkey, hkey]

namespace WellKeyed

variable {store : Store}

/-- The ids of the rows are their keys. -/
theorem map_some_ids (h : store.WellKeyed) :
    store.ids.map some = store.rows.map store.entity.key? :=
  map_some_ids_of_isSome_key h.isSome_key

theorem mem_ids_iff (h : store.WellKeyed) {id : String} :
    id ∈ store.ids ↔ some id ∈ store.rows.map store.entity.key? := by
  rw [← h.map_some_ids]
  simp

theorem nodup_ids (h : store.WellKeyed) : store.ids.Nodup := by
  have hkeys := h.nodup_keys
  rw [← h.map_some_ids] at hkeys
  exact hkeys.of_map _

/-- An id leads to the one row that holds it as its key. -/
theorem position?_eq_some_iff (h : store.WellKeyed) {id : String} {index : Nat} {row : Record}
    (hrow : store.rows[index]? = some row) :
    store.position? id = some index ↔ store.entity.key? row = some id := by
  obtain ⟨key, hkey⟩ := Option.isSome_iff_exists.mp
    (h.isSome_key row (List.mem_of_getElem? hrow))
  have hid : store.ids[index]? = some key := by
    rw [getElem?_ids, hrow, Option.map_some, Entity.rowId_eq_of_key? hkey]
  rw [Store.position?_eq_some_iff, hid, hkey, and_iff_left_iff_imp]
  intro heq earlier hlt hearlier
  obtain ⟨hbound, -⟩ := List.getElem?_eq_some_iff.mp hid
  have hsame : store.ids[earlier]? = store.ids[index]? := by rw [hearlier, hid, heq]
  have := (List.getElem?_inj (Nat.lt_trans hlt hbound) h.nodup_ids).mp hsame
  omega

/-- Every row is addressed by its key and by no other id, and its key hits it. -/
theorem addressed (h : store.WellKeyed) {index : Nat} {row : Record}
    (hrow : store.rows[index]? = some row) :
    ∃ id, (∀ other, store.position? other = some index ↔ other = id) ∧
      store.Hits id index row := by
  obtain ⟨id, hid⟩ := Option.isSome_iff_exists.mp (h.isSome_key row (List.mem_of_getElem? hrow))
  refine ⟨id, fun other => ?_, ?_⟩
  · rw [h.position?_eq_some_iff hrow, hid, Option.some.injEq, eq_comm]
  · exact hits_of_position? ((h.position?_eq_some_iff hrow).mpr hid) hrow

/-! ### What changes keep a store well keyed -/

theorem append (h : store.WellKeyed) {record : Record} {key : String}
    (hkey : store.entity.key? record = some key) (hfree : key ∉ store.ids) (nextId : Nat) :
    WellKeyed { store with rows := store.rows ++ [record], nextId } where
  isSome_key row hrow := by
    rcases List.mem_append.mp hrow with hrow | hrow
    · exact h.isSome_key row hrow
    · rw [List.mem_singleton.mp hrow, hkey]
      rfl
  nodup_keys := by
    rw [h.mem_ids_iff] at hfree
    rw [List.map_append, List.map_singleton, hkey, List.nodup_append]
    refine ⟨h.nodup_keys, List.nodup_singleton _, fun found hfound other hother => ?_⟩
    rw [List.mem_singleton.mp hother]
    exact fun heq => hfree (heq ▸ hfound)

theorem eraseIdx (h : store.WellKeyed) (index : Nat) :
    WellKeyed { store with rows := store.rows.eraseIdx index } where
  isSome_key row hrow := h.isSome_key row (List.eraseIdx_subset hrow)
  nodup_keys := h.nodup_keys.sublist ((List.eraseIdx_sublist _ index).map _)

/-- A row may be written over exactly by a record with a key of its own. -/
theorem set_iff (h : store.WellKeyed) {id : String} {index : Nat}
    (hposition : store.position? id = some index) (record : Record) :
    WellKeyed { store with rows := store.rows.set index record } ↔
      ∃ key, store.entity.key? record = some key ∧ (key = id ∨ key ∉ store.ids) := by
  obtain ⟨row, hrow, -⟩ := exists_row_of_position? hposition
  have hid := (h.position?_eq_some_iff hrow).mp hposition
  obtain ⟨hlt, hget⟩ := List.getElem?_eq_some_iff.mp hrow
  constructor
  · intro hset
    have hmem : record ∈ store.rows.set index record := List.mem_set hlt record
    obtain ⟨key, hkey⟩ := Option.isSome_iff_exists.mp (hset.isSome_key record hmem)
    refine ⟨key, hkey, ?_⟩
    by_contra! hclash
    obtain ⟨hne, htaken⟩ := hclash
    rw [h.mem_ids_iff] at htaken
    obtain ⟨other, hother⟩ := List.getElem?_of_mem htaken
    rw [List.getElem?_map] at hother
    have hplaces : other ≠ index := by
      rintro rfl
      rw [hrow, Option.map_some, hid, Option.some.injEq, Option.some.injEq] at hother
      exact hne hother.symm
    -- Two places of the new rows hold `key`: that of the record and the one it was taken from.
    have hnew := hset.nodup_keys
    rw [List.map_set] at hnew
    have hsame : ((store.rows.map store.entity.key?).set index (store.entity.key? record))[index]? =
        ((store.rows.map store.entity.key?).set index (store.entity.key? record))[other]? := by
      rw [List.getElem?_set_self (by simpa using hlt), List.getElem?_set_ne hplaces.symm, hkey,
        List.getElem?_map, hother]
    exact hplaces ((List.getElem?_inj (by simpa using hlt) hnew).mp hsame).symm
  · rintro ⟨key, hkey, hown⟩
    refine ⟨fun other hother => ?_, ?_⟩
    · rcases List.mem_or_eq_of_mem_set hother with hother | rfl
      · exact h.isSome_key other hother
      · rw [hkey]
        rfl
    · rw [List.map_set, hkey]
      rcases hown with rfl | hfree
      · have hbound : index < (store.rows.map store.entity.key?).length := by simpa using hlt
        have hsame : (store.rows.map store.entity.key?)[index] = some key := by
          rw [List.getElem_map, hget, hid]
        rw [← hsame, List.set_getElem_self]
        exact h.nodup_keys
      · exact h.nodup_keys.set (mt h.mem_ids_iff.mpr hfree)

end WellKeyed

/-! ### Runs -/

/-- A request keeps the keys of a store apart unless it is an update that is accepted although its
record has no text under the primary key, or the key of another row. -/
def KeepsKeys (store : Store) : StoreRequest → Prop
  | .update id input => ∀ record, (store.update id input).1 = .ok record →
      ∃ key, store.entity.key? record = some key ∧ (key = id ∨ key ∉ store.ids)
  | .list | .read _ | .create _ | .delete _ => True

theorem WellKeyed.create {store : Store} (h : store.WellKeyed)
    (hkey : store.entity.primaryKey.isSome) (input : Record) :
    (store.run (.create input)).2.WellKeyed := by
  have houtcome := run_outcome store (.create input)
  generalize (store.run (.create input)).2 = next at houtcome
  cases houtcome with
  | kept => exact h
  | refused => exact ⟨by simpa using h.isSome_key, by simpa using h.nodup_keys⟩
  | created _ _ hfree =>
    obtain ⟨key, hrecord⟩ := Option.isSome_iff_exists.mp (store.isSome_key?_assignKey input hkey)
    rw [Entity.rowId_eq_of_key? hrecord] at hfree
    simpa using h.append hrecord hfree (store.assignKey input).2.nextId

theorem WellKeyed.delete {store : Store} (h : store.WellKeyed) (id : String) :
    (store.run (.delete id)).2.WellKeyed := by
  have houtcome := run_outcome store (.delete id)
  generalize (store.run (.delete id)).2 = next at houtcome
  cases houtcome with
  | kept => exact h
  | deleted _ index => exact h.eraseIdx index

/-- One request leaves a well-keyed store well keyed exactly if it keeps the keys apart. -/
theorem WellKeyed.run_iff {store : Store} (h : store.WellKeyed)
    (hkey : store.entity.primaryKey.isSome) (request : StoreRequest) :
    (store.run request).2.WellKeyed ↔ store.KeepsKeys request := by
  cases request with
  | list => exact iff_of_true h trivial
  | read id => exact iff_of_true h trivial
  | create input => exact iff_of_true (h.create hkey input) trivial
  | delete id => exact iff_of_true (h.delete id) trivial
  | update id input =>
    cases hposition : store.position? id with
    | none => simpa [run, KeepsKeys, update_of_position?_eq_none hposition] using h
    | some index =>
      obtain ⟨row, hrow, -⟩ := exists_row_of_position? hposition
      simp only [run, KeepsKeys, Store.update_eq hposition hrow]
      cases hvalid : store.entity.validate (Entries.merge row input) with
      | error error => simpa using h
      | ok => simpa using h.set_iff hposition (Entries.merge row input)

theorem wellKeyed_of_rows_eq_nil {store : Store} (h : store.rows = []) : store.WellKeyed :=
  ⟨by simp [h], by simp [h]⟩

/-- A run from the empty store goes through well-keyed stores alone exactly if each of its requests
keeps the keys of the store it meets apart; and in a well-keyed store every row is addressed by
exactly one id, under which it is read, updated and deleted. -/
theorem wellKeyed_along_run_iff {entity : Entity} (hkey : entity.primaryKey.isSome)
    (requests : List StoreRequest) :
    ((∀ done, done <+: requests → (after { entity } done).WellKeyed) ↔
      ∀ done request, done ++ [request] <+: requests →
        (after { entity } done).KeepsKeys request) ∧
    ∀ done, (after { entity } done).WellKeyed →
      ∀ index row, (after { entity } done).rows[index]? = some row →
        ∃ id, (∀ other, (after { entity } done).position? other = some index ↔ other = id) ∧
          (after { entity } done).Hits id index row := by
  refine ⟨⟨fun h done request hprefix => ?_, fun h done => ?_⟩, fun done h index row =>
    h.addressed⟩
  · have hdone := h done ((List.prefix_append done [request]).trans hprefix)
    rw [← hdone.run_iff (by simpa using hkey), ← after_append_singleton]
    exact h _ hprefix
  · induction done using List.reverseRecOn with
    | nil => exact fun _ => wellKeyed_of_rows_eq_nil rfl
    | append_singleton done request ih =>
      intro hprefix
      have hdone := ih ((List.prefix_append done [request]).trans hprefix)
      rw [after_append_singleton, hdone.run_iff (by simpa using hkey)]
      exact h done request hprefix

/-- An entity whose only field is its key. -/
def ticket : Entity where
  id := "Ticket"
  title := "Ticket"
  resourcePath := "/tickets"
  primaryKey := some "id"
  fields := [{ name := "id", label := "Id", type := .string, required := false }]

theorem wellKeyed_along_run_ticket :
    ticket.primaryKey.isSome ∧
      ((∀ done, done <+: [.create [], .delete "1"] → (after { entity := ticket } done).WellKeyed) ↔
        ∀ done request, done ++ [request] <+: [.create [], .delete "1"] →
          (after { entity := ticket } done).KeepsKeys request) ∧
      ∀ done, (after { entity := ticket } done).WellKeyed →
        ∀ index row, (after { entity := ticket } done).rows[index]? = some row →
          ∃ id, (∀ other, (after { entity := ticket } done).position? other = some index ↔
              other = id) ∧
            (after { entity := ticket } done).Hits id index row :=
  ⟨rfl, wellKeyed_along_run_iff rfl _⟩

/-- An update may take the key of another row, and it may write `null` over a key. -/
theorem taken_key_after_update :
    ticket.primaryKey.isSome ∧
      ¬ (after { entity := ticket } [.create [("id", .string "a")], .create [("id", .string "b")],
        .update "b" [("id", .string "a")]]).WellKeyed ∧
      ¬ (after { entity := ticket } [.create [("id", .string "a")],
        .update "a" [("id", .null)]]).WellKeyed := by
  refine ⟨rfl, fun h => ?_, fun h => ?_⟩
  · exact absurd h.nodup_keys (by decide)
  · exact absurd h.isSome_key (by decide)

end Store

end CrudUi
