import CrudUi.Proofs.Store.SampleKeys

/-!
# Creating rows

A record that is created is stored as it was sent, but for its key: whatever is no text under the
primary key gives way to a number from the counter, be it nothing, `null` or a value of the kind that
the key is declared to have (`Store.lookup_of_create_iff`).  The record becomes the last row, under an
id that no row had; it is read under this id, and all other ids lead where they led, whatever the
rows of the store are (`Store.create_frame`).
-/

namespace CrudUi

namespace Entity

variable {entity : Entity} {record : Record} {name : String}

/-- A value that is held under the primary key is its text exactly if it is a text. -/
theorem some_string_key?_eq_iff (hname : entity.primaryKey = some name) {value : Json}
    (hvalue : record.lookup name = some value) (key : String) :
    Json.string ((entity.key? record).getD key) = value ↔ value.isString = true := by
  rw [key?_eq hname, hvalue]
  cases value <;> simp [Json.string?, Json.isString]

theorem withKey_of_key?_eq_none (hname : entity.primaryKey = some name)
    (h : entity.key? record = none) (key : String) :
    entity.withKey record key = Entries.insert name (.string key) record := by
  simp [withKey, hname, h]

/-- A record that needs no number stays as it is, whatever number there would be. -/
theorem withKey_of_not_draws (h : ¬ entity.Draws (.create record)) (key : String) :
    entity.withKey record key = record := by
  unfold withKey
  split
  · rename_i name hname
    rw [if_pos]
    by_contra hnone
    exact h ⟨by simp [hname], by simpa using hnone⟩
  · rfl

end Entity

namespace Store

variable {store next : Store} {input record : Record} {id : String}

/-! ### The record -/

theorem assignKey_eq_withKey (store : Store) (input : Record) :
    (store.assignKey input).1 = store.entity.withKey input (toString store.freeNumber) := by
  by_cases hdraws : store.entity.Draws (.create input)
  · rw [assignKey_of_draws hdraws]
  · rw [assignKey_of_not_draws hdraws, Entity.withKey_of_not_draws hdraws]

/-- A record is created if it is valid, with the key it is given, and its id is free. -/
theorem create_eq_ok_iff :
    store.create input = (.ok record, next) ↔
      record = store.entity.withKey input (toString store.freeNumber) ∧
        store.entity.validate record = .ok () ∧
        store.entity.rowId record store.rows.length ∉ store.ids ∧
        next = { store with
          rows := store.rows ++ [record], nextId := (store.assignKey input).2.nextId } := by
  simp only [create_eq, assignKey_entity, ← assignKey_eq_withKey]
  constructor
  · intro h
    cases hcheck : store.checkNew (store.assignKey input).1 with
    | error error => simp [hcheck] at h
    | ok =>
      rw [hcheck, Prod.mk.injEq, Except.ok.injEq] at h
      obtain ⟨rfl, rfl⟩ := h
      obtain ⟨hvalid, hfree⟩ := checkNew_eq_ok_iff.mp hcheck
      exact ⟨rfl, hvalid, hfree, rfl⟩
  · rintro ⟨rfl, hvalid, hfree, rfl⟩
    rw [checkNew_eq_ok_iff.mpr ⟨hvalid, hfree⟩]

/-- A record that was created is what the client sent if no number was drawn for it, and else what
the client sent with the number as its key.  So an entry that the client sent is kept exactly if it
is not under the primary key or is a text. -/
theorem lookup_of_create_iff (h : (store.create input).1 = .ok record) :
    (¬ store.entity.Draws (.create input) → record = input) ∧
    (∀ name, store.entity.primaryKey = some name → store.entity.Draws (.create input) →
      record = Entries.insert name (.string (toString store.freeNumber)) input) ∧
    ∀ name value, input.lookup name = some value →
      (record.lookup name = some value ↔
        (store.entity.primaryKey = some name → value.isString = true)) := by
  obtain ⟨rfl, -⟩ := create_eq_ok_iff.mp (Prod.ext h rfl)
  refine ⟨fun hdraws => Entity.withKey_of_not_draws hdraws _, fun name hname hdraws =>
    Entity.withKey_of_key?_eq_none hname hdraws.2 _, fun name value hvalue => ?_⟩
  by_cases hname : store.entity.primaryKey = some name
  · rw [Entity.lookup_withKey_of_primaryKey hname, Option.some.injEq,
      Entity.some_string_key?_eq_iff hname hvalue, imp_iff_right hname]
  · rw [Entity.lookup_withKey hname, hvalue]
    exact iff_of_true rfl (absurd · hname)

/-- A key that is a number. -/
def numberKey : Schema where
  type := some (.single "integer")

theorem compile_numberedBadges :
    (badges numberKey).compile = .ok { entities := [("Badge", badge numberKey)] } :=
  compile_badges (by decide) (by decide +kernel)

theorem lookup_of_create_numberedBadge :
    (create { entity := badge numberKey } [("id", .ofNat 7), ("holder", .string "Ann")]).1 =
        .ok [("id", .string "1"), ("holder", .string "Ann")] ∧
      Entries.lookup "holder" [("id", Json.string "1"), ("holder", .string "Ann")] =
        some (.string "Ann") ∧
      Entries.lookup "id" [("id", Json.string "1"), ("holder", .string "Ann")] ≠
        some (.ofNat 7) := by
  have hcreate : (create { entity := badge numberKey }
      [("id", .ofNat 7), ("holder", .string "Ann")]).1 =
      .ok [("id", .string "1"), ("holder", .string "Ann")] := by decide
  obtain ⟨-, -, hkept⟩ := lookup_of_create_iff hcreate
  refine ⟨hcreate, (hkept "holder" _ rfl).mpr (by decide), fun h => ?_⟩
  exact absurd ((hkept "id" _ rfl).mp h (by decide)) (by decide)

/-- A number that is valid as the key gives way to another. -/
theorem replaced_key_numberedBadge :
    (badges numberKey).compile = .ok { entities := [("Badge", badge numberKey)] } ∧
      (badge numberKey).primaryKey = some "id" ∧
      (badge numberKey).validate [("id", .ofNat 7), ("holder", .string "Ann")] = .ok () ∧
      (create { entity := badge numberKey } [("id", .ofNat 7), ("holder", .string "Ann")]).1 =
        .ok [("id", .string "1"), ("holder", .string "Ann")] := by
  refine ⟨compile_numberedBadges, ?_, ?_, ?_⟩
  · decide
  · decide
  · decide

/-! ### The other rows -/

theorem ids_append (store : Store) (record : Record) (nextId : Nat) :
    ids { store with rows := store.rows ++ [record], nextId } =
      store.ids ++ [store.entity.rowId record store.rows.length] := by
  simp [ids, List.mapIdx_append]

section Append

variable (nextId : Nat)

theorem read_append_of_free (hfree : store.entity.rowId record store.rows.length ∉ store.ids) :
    read { store with rows := store.rows ++ [record], nextId }
      (store.entity.rowId record store.rows.length) = .ok record := by
  have hlast : (store.rows ++ [record])[store.rows.length]? = some record := by simp
  refine read_eq (position?_eq_some_iff.mpr ⟨?_, ?_⟩) hlast
  · simp [ids_append]
  · intro earlier hearlier hid
    rw [ids_append, List.getElem?_append_left (by simpa using hearlier)] at hid
    exact hfree (List.mem_of_getElem? hid)

/-- A row that is appended stands behind all others, so an id that is not its own leads where it
led. -/
theorem read_append_of_ne (hne : id ≠ store.entity.rowId record store.rows.length) :
    read { store with rows := store.rows ++ [record], nextId } id = store.read id := by
  refine read_congr rfl ?_
  cases hposition : store.position? id with
  | none =>
    have hfree := position?_eq_none_iff.mp hposition
    rw [row?_eq_none_iff.mpr hfree, row?_eq_none_iff, ids_append]
    simp [hfree, hne]
  | some index =>
    -- The first row with the id stands before the new one and stays the first.
    obtain ⟨row, hrow, -⟩ := exists_row_of_position? hposition
    obtain ⟨hlt, -⟩ := List.getElem?_eq_some_iff.mp hrow
    obtain ⟨hid, hfirst⟩ := position?_eq_some_iff.mp hposition
    rw [row?_eq hposition hrow]
    have hstill : (store.rows ++ [record])[index]? = some row := by
      rwa [List.getElem?_append_left hlt]
    refine row?_eq (position?_eq_some_iff.mpr ⟨?_, fun earlier hearlier => ?_⟩) hstill
    · rwa [ids_append, List.getElem?_append_left (by simpa using hlt)]
    · rw [ids_append, List.getElem?_append_left (by simpa using hearlier.trans hlt)]
      exact hfirst earlier hearlier

end Append

/-- A record that is created is valid and becomes the last row, under an id that was free.  Reading
this id gives the record, and reading any other id gives what it gave before. -/
theorem create_frame (h : store.create input = (.ok record, next)) :
    next.rows = store.rows ++ [record] ∧ next.entity = store.entity ∧
    store.entity.validate record = .ok () ∧
    store.entity.rowId record store.rows.length ∉ store.ids ∧
    next.read (store.entity.rowId record store.rows.length) = .ok record ∧
    ∀ other, other ≠ store.entity.rowId record store.rows.length →
      next.read other = store.read other := by
  obtain ⟨-, hvalid, hfree, rfl⟩ := create_eq_ok_iff.mp h
  exact ⟨rfl, rfl, hvalid, hfree, read_append_of_free _ hfree, fun _ => read_append_of_ne _⟩

/-- Tickets of which the first has lost its key and the second has one like a place. -/
def mixedTickets : Store where
  entity := ticket
  rows := [[("id", .null)], [("id", .string "Ticket:2")]]

theorem create_frame_mixedTickets :
    mixedTickets.create [("id", .string "Ticket:1")] =
        (.ok [("id", .string "Ticket:1")],
          { mixedTickets with rows := mixedTickets.rows ++ [[("id", .string "Ticket:1")]] }) ∧
      "Ticket:1" ∉ mixedTickets.ids ∧
      read { mixedTickets with rows := mixedTickets.rows ++ [[("id", .string "Ticket:1")]] }
        "Ticket:1" = .ok [("id", .string "Ticket:1")] ∧
      read { mixedTickets with rows := mixedTickets.rows ++ [[("id", .string "Ticket:1")]] }
        "Ticket:0" = mixedTickets.read "Ticket:0" := by
  have hcreate : mixedTickets.create [("id", .string "Ticket:1")] =
      (.ok [("id", .string "Ticket:1")],
        { mixedTickets with rows := mixedTickets.rows ++ [[("id", .string "Ticket:1")]] }) := by
    decide
  obtain ⟨-, -, -, hfree, hread, hothers⟩ := create_frame hcreate
  exact ⟨hcreate, hfree, hread, hothers _ (by decide)⟩

end Store

end CrudUi
