import CrudUi.Proofs.Store.Keys
import Mathlib.Data.List.Infix
import Mathlib.Data.List.Perm.Subperm

/-!
# Keys from the counter

A record that is to be created without a text under the primary key *draws* a number: the least one
from the counter on that is the id of no row.  The counter then stands behind the number drawn, and
nothing else moves it (`Store.nextId_run`), so a number is never drawn twice.

A number that is drawn may still have been the id of an earlier row.  The counter does not see ids
that records bring with them: a number ahead of the counter that came in as the key of a record, or
as an allowed text of a sample row, and whose row is gone again, is drawn when the counter gets
there.  Nothing else is ever drawn that was an id before (`Store.drawn_was_id_iff`).

## Main definitions

* `Entity.Draws` : the requests that draw a number.
* `Store.Brings` : the requests by which an id comes into a store that was not drawn.
-/

namespace CrudUi

/-! ### Numbers as texts -/

theorem toString_nat_injective : Function.Injective (toString : Nat → String) := by
  intro m n h
  have hdigits : Nat.toDigits 10 m = Nat.toDigits 10 n := by
    simpa only [Nat.toString_eq_ofList_toDigits, String.ofList_inj] using h
  simpa using congrArg (Nat.ofDigitChars 10 · 0) hdigits

theorem isDigit_of_mem_toString {c : Char} {n : Nat} (h : c ∈ (toString n).toList) : c.isDigit := by
  rw [Nat.toString_eq_ofList_toDigits, String.toList_ofList] at h
  exact Nat.isDigit_of_mem_toDigits (by decide) (by decide) h

/-- A text that holds something else than digits is no number. -/
theorem toString_nat_ne_append {c : Char} (hc : c.isDigit = false) (n : Nat) (before : String)
    (after : String) : toString n ≠ before ++ String.singleton c ++ after := by
  intro h
  have hmem : c ∈ (toString n).toList := by rw [h]; simp
  have := isDigit_of_mem_toString hmem
  rw [hc] at this
  exact Bool.noConfusion this

namespace Entity

variable {entity : Entity}

/-- A request draws a number if it is to create a record without a text under the primary key. -/
def Draws (entity : Entity) : StoreRequest → Prop
  | .create input => entity.primaryKey.isSome ∧ entity.key? input = none
  | .list | .read _ | .update _ _ | .delete _ => False

instance (entity : Entity) : DecidablePred entity.Draws
  | .create input => inferInstanceAs (Decidable (entity.primaryKey.isSome ∧ entity.key? input = none))
  | .list | .read _ | .update _ _ | .delete _ => inferInstanceAs (Decidable False)

/-- An id that is a number is the text under the primary key. -/
theorem key?_of_rowId_eq_toString {record : Record} {index n : Nat}
    (h : entity.rowId record index = toString n) : entity.key? record = some (toString n) := by
  cases hkey : entity.key? record with
  | some key => rw [← h, rowId_eq_of_key? hkey]
  | none =>
    rw [rowId, hkey] at h
    exact absurd h.symm (toString_nat_ne_append (c := ':') rfl n _ _)

end Entity

namespace Store

variable {store start : Store} {request : StoreRequest} {input : Record} {id : String} {n : Nat}

/-! ### Free numbers -/

@[simp] theorem length_ids (store : Store) : store.ids.length = store.rows.length := by
  simp [ids]

theorem mem_ids_iff : id ∈ store.ids ↔
    ∃ index row, store.rows[index]? = some row ∧ store.entity.rowId row index = id := by
  simp only [List.mem_iff_getElem?, getElem?_ids, Option.map_eq_some_iff]

/-- Of one number more than there are rows, one is the id of no row. -/
theorem exists_free (store : Store) :
    ∃ n ∈ List.range' store.nextId (store.rows.length + 1), toString n ∉ store.ids := by
  by_contra! htaken
  let texts := (List.range' store.nextId (store.rows.length + 1)).map toString
  have hnodup : texts.Nodup := (List.nodup_range' 1).map toString_nat_injective
  have hsubset : texts ⊆ store.ids := by
    intro text htext
    obtain ⟨n, hn, rfl⟩ := List.mem_map.mp htext
    exact htaken n hn
  have hlength := (hnodup.subperm hsubset).length_le
  rw [List.length_map, List.length_range', length_ids] at hlength
  omega

theorem find?_eq_freeNumber (store : Store) :
    (List.range' store.nextId (store.rows.length + 1)).find? (fun n => toString n ∉ store.ids) =
      some store.freeNumber := by
  obtain ⟨n, hn, hfree⟩ := store.exists_free
  have hfound : ((List.range' store.nextId (store.rows.length + 1)).find? fun n =>
      toString n ∉ store.ids).isSome := by
    rw [List.find?_isSome]
    exact ⟨n, hn, by simpa using hfree⟩
  obtain ⟨found, hfound⟩ := Option.isSome_iff_exists.mp hfound
  rw [freeNumber, hfound, Option.getD_some]

theorem freeNumber_notMem_ids (store : Store) : toString store.freeNumber ∉ store.ids := by
  simpa using List.find?_some store.find?_eq_freeNumber

theorem nextId_le_freeNumber (store : Store) : store.nextId ≤ store.freeNumber :=
  (List.mem_range'_1.mp (List.mem_of_find?_eq_some store.find?_eq_freeNumber)).1

/-! ### The counter -/

theorem assignKey_of_draws (h : store.entity.Draws (.create input)) :
    store.assignKey input =
      (store.entity.withKey input (toString store.freeNumber),
        { store with nextId := store.freeNumber + 1 }) := by
  rw [assignKey, if_pos (by simpa [Entity.Draws] using h)]
  rfl

theorem assignKey_of_not_draws (h : ¬ store.entity.Draws (.create input)) :
    store.assignKey input = (input, store) := by
  rw [assignKey, if_neg (by simpa [Entity.Draws] using h)]

/-- A number that is drawn becomes the key of the record. -/
theorem key?_assignKey_of_draws (h : store.entity.Draws (.create input)) :
    store.entity.key? (store.assignKey input).1 = some (toString store.freeNumber) := by
  rw [assignKey_of_draws h, Entity.key?_withKey h.1, h.2]
  rfl

theorem nextId_assignKey (store : Store) (input : Record) :
    (store.assignKey input).2.nextId =
      if store.entity.Draws (.create input) then store.freeNumber + 1 else store.nextId := by
  split
  next h => rw [assignKey_of_draws h]
  next h => rw [assignKey_of_not_draws h]

/-- Drawing moves the counter behind the number drawn, and nothing else moves it. -/
theorem nextId_run (store : Store) (request : StoreRequest) :
    (store.run request).2.nextId =
      if store.entity.Draws request then store.freeNumber + 1 else store.nextId := by
  have hstep := run_step store request
  generalize (store.run request).1 = answer, (store.run request).2 = next at hstep ⊢
  cases hstep with
  | listed | read | updateRefused | updated | deleteRefused | deleted => rfl
  | createRefused input => exact nextId_assignKey store input
  | created input => exact nextId_assignKey store input

theorem nextId_le_nextId_run (store : Store) (request : StoreRequest) :
    store.nextId ≤ (store.run request).2.nextId := by
  rw [nextId_run]
  split
  · exact Nat.le_succ_of_le store.nextId_le_freeNumber
  · exact Nat.le_refl _

theorem nextId_le_nextId_after {earlier done : List StoreRequest} (h : earlier <+: done) :
    (start.after earlier).nextId ≤ (start.after done).nextId := by
  obtain ⟨rest, rfl⟩ := h
  induction rest using List.reverseRecOn with
  | nil => rw [List.append_nil]
  | append_singleton rest request ih =>
    rw [← List.append_assoc, after_append_singleton]
    exact ih.trans (nextId_le_nextId_run _ request)

/-- What was drawn once lies before the counter from then on. -/
theorem freeNumber_lt_nextId_after {earlier done : List StoreRequest}
    (h : earlier ++ [request] <+: done) (hdraws : start.entity.Draws request) :
    (start.after earlier).freeNumber < (start.after done).nextId := by
  refine Nat.lt_of_succ_le (Nat.le_trans (Nat.le_of_eq ?_) (nextId_le_nextId_after h))
  rw [after_append_singleton, nextId_run, if_pos (by rwa [entity_after])]

/-! ### Where ids come from -/

/-- A request that is accepted brings an id with it: that of the record it creates, if the record
has a key of its own, or a new one for the row that it writes over. -/
def Brings (store : Store) (request : StoreRequest) (id : String) : Prop :=
  ∃ record, (store.run request).1 = .ok (.row record) ∧ store.entity.key? record = some id ∧
    match request with
    | .create _ => ¬ store.entity.Draws request
    | .update old _ => id ≠ old
    | .list | .read _ | .delete _ => False

/-- A number is the id of a row exactly if it is the text under the primary key of one. -/
theorem toString_mem_ids_iff :
    toString n ∈ store.ids ↔ ∃ row ∈ store.rows, store.entity.key? row = some (toString n) := by
  rw [mem_ids_iff]
  constructor
  · rintro ⟨index, row, hrow, hid⟩
    exact ⟨row, List.mem_of_getElem? hrow, Entity.key?_of_rowId_eq_toString hid⟩
  · rintro ⟨row, hrow, hkey⟩
    obtain ⟨index, hindex⟩ := List.getElem?_of_mem hrow
    exact ⟨index, row, hindex, Entity.rowId_eq_of_key? hkey index⟩

/-- A number that is an id after a request was one before, or the request brought or drew it. -/
theorem toString_mem_ids_run (h : toString n ∈ (store.run request).2.ids) :
    toString n ∈ store.ids ∨ store.Brings request (toString n) ∨
      (store.entity.Draws request ∧ n = store.freeNumber) := by
  have hstep := run_step store request
  unfold Brings
  generalize (store.run request).1 = answer, (store.run request).2 = next at hstep h ⊢
  cases hstep with
  | listed | read | updateRefused | deleteRefused => exact .inl h
  | createRefused input => exact .inl (by simpa using h)
  | created input =>
    simp only [toString_mem_ids_iff, assignKey_entity] at h
    obtain ⟨row, hrow, hkey⟩ := h
    rcases List.mem_append.mp hrow with hrow | hrow
    · exact .inl (toString_mem_ids_iff.mpr ⟨row, hrow, hkey⟩)
    rw [List.mem_singleton.mp hrow] at hkey
    by_cases hdraws : store.entity.Draws (.create input)
    · rw [key?_assignKey_of_draws hdraws, Option.some.injEq] at hkey
      exact .inr (.inr ⟨hdraws, (toString_nat_injective hkey).symm⟩)
    · exact .inr (.inl ⟨_, rfl, hkey, hdraws⟩)
  | updated old input index row hposition hrow =>
    obtain ⟨other, hother, hkey⟩ := toString_mem_ids_iff.mp h
    rcases List.mem_or_eq_of_mem_set hother with hother | rfl
    · exact .inl (toString_mem_ids_iff.mpr ⟨other, hother, hkey⟩)
    by_cases hne : toString n = old
    · exact .inl (hne ▸ List.mem_of_getElem? (position?_eq_some_iff.mp hposition).1)
    · exact .inr (.inl ⟨_, rfl, hkey, hne⟩)
  | deleted id index =>
    obtain ⟨row, hrow, hkey⟩ := toString_mem_ids_iff.mp h
    exact .inl (toString_mem_ids_iff.mpr ⟨row, List.eraseIdx_subset hrow, hkey⟩)

/-- An id that a request brings is the id of a row afterwards. -/
theorem mem_ids_run_of_brings (h : store.Brings request id) : id ∈ (store.run request).2.ids := by
  obtain ⟨record, hrecord, hkey, hbrings⟩ := h
  have hstep := run_step store request
  generalize (store.run request).1 = answer, (store.run request).2 = next at hstep hrecord ⊢
  cases hstep with
  | listed | read | deleteRefused | deleted => exact hbrings.elim
  | createRefused | updateRefused => simp at hrecord
  | created input =>
    obtain rfl : (store.assignKey input).1 = record := by simpa using hrecord
    exact mem_ids_iff.mpr ⟨store.rows.length, (store.assignKey input).1, by simp,
      Entity.rowId_eq_of_key? (by simpa using hkey) _⟩
  | updated old input index row hposition hrow =>
    obtain rfl : Entries.merge row input = record := by simpa using hrecord
    obtain ⟨hlt, -⟩ := List.getElem?_eq_some_iff.mp hrow
    exact mem_ids_iff.mpr ⟨index, _, by simp [hlt], Entity.rowId_eq_of_key? hkey index⟩

/-- A number that is an id somewhere along a run was one at the start, was brought or was drawn. -/
theorem toString_mem_ids_after {done : List StoreRequest}
    (h : toString n ∈ (start.after done).ids) :
    toString n ∈ start.ids ∨
      (∃ earlier request, earlier ++ [request] <+: done ∧
        (start.after earlier).Brings request (toString n)) ∨
      ∃ earlier request, earlier ++ [request] <+: done ∧ start.entity.Draws request ∧
        n = (start.after earlier).freeNumber := by
  induction done using List.reverseRecOn with
  | nil => exact .inl h
  | append_singleton done request ih =>
    have hprefix := List.prefix_append done [request]
    rw [after_append_singleton] at h
    rcases toString_mem_ids_run h with h | hbrings | hdraws
    · refine (ih h).imp_right (Or.imp ?_ ?_) <;> rintro ⟨earlier, other, hearlier, hother⟩
      · exact ⟨earlier, other, hearlier.trans hprefix, hother⟩
      · exact ⟨earlier, other, hearlier.trans hprefix, hother⟩
    · exact .inr (.inl ⟨done, request, List.prefix_rfl, hbrings⟩)
    · rw [entity_after] at hdraws
      exact .inr (.inr ⟨done, request, List.prefix_rfl, hdraws⟩)

/-- A number drawn in a run from sample rows lies behind all numbers that went with the sample rows
or were drawn before, and is the id of no row.  It was the id of an earlier row exactly if a sample
row or an earlier request of the run brought it. -/
theorem drawn_was_id_iff {entity : Entity} (count : Nat) (done : List StoreRequest)
    {input : Record} (hinput : entity.Draws (.create input)) :
    ∃ number,
      entity.key? (((seeded entity count).after done).assignKey input).1 = some (toString number) ∧
      count < number ∧
      (∀ earlier request, earlier ++ [request] <+: done → entity.Draws request →
        ((seeded entity count).after earlier).freeNumber < number) ∧
      toString number ∉ ((seeded entity count).after done).ids ∧
      ((∃ earlier, earlier <+: done ∧
          toString number ∈ ((seeded entity count).after earlier).ids) ↔
        toString number ∈ (seeded entity count).ids ∨
        ∃ earlier request, earlier ++ [request] <+: done ∧
          ((seeded entity count).after earlier).Brings request (toString number)) := by
  have hdraws : ((seeded entity count).after done).entity.Draws (.create input) := by
    rwa [entity_after]
  have hassigned := key?_assignKey_of_draws hdraws
  rw [entity_after] at hassigned
  have hnext := ((seeded entity count).after done).nextId_le_freeNumber
  have hdrawn : ∀ earlier request, earlier ++ [request] <+: done → entity.Draws request →
      ((seeded entity count).after earlier).freeNumber <
        ((seeded entity count).after done).freeNumber := fun earlier request hprefix hrequest =>
    Nat.lt_of_lt_of_le (freeNumber_lt_nextId_after hprefix hrequest) hnext
  refine ⟨_, hassigned, ?_, hdrawn, freeNumber_notMem_ids _, ?_, ?_⟩
  · exact Nat.lt_of_lt_of_le (Nat.lt_succ_self count)
      ((nextId_le_nextId_after (List.nil_prefix (l := done))).trans hnext)
  · rintro ⟨earlier, hearlier, hid⟩
    rcases toString_mem_ids_after hid with hstart | ⟨before, request, hbefore, hbrings⟩ |
      ⟨before, request, hbefore, hrequest, hnumber⟩
    · exact .inl hstart
    · exact .inr ⟨before, request, hbefore.trans hearlier, hbrings⟩
    · exact absurd hnumber (hdrawn before request (hbefore.trans hearlier) hrequest).ne'
  · rintro (hstart | ⟨before, request, hbefore, hbrings⟩)
    · exact ⟨[], List.nil_prefix, hstart⟩
    · refine ⟨_, hbefore, ?_⟩
      rw [after_append_singleton]
      exact mem_ids_run_of_brings hbrings

theorem drawn_was_id_ticket :
    ticket.Draws (.create []) ∧
      ∃ number,
        ticket.key? (((seeded ticket 2).after [.create [("id", .string "3")], .delete "3"]).assignKey
          []).1 = some (toString number) ∧
        2 < number ∧
        ((∃ earlier, earlier <+: [.create [("id", .string "3")], .delete "3"] ∧
            toString number ∈ ((seeded ticket 2).after earlier).ids) ↔
          toString number ∈ (seeded ticket 2).ids ∨
          ∃ earlier request, earlier ++ [request] <+:
              [.create [("id", .string "3")], .delete "3"] ∧
            ((seeded ticket 2).after earlier).Brings request (toString number)) := by
  have hdraws : ticket.Draws (.create []) := ⟨rfl, rfl⟩
  obtain ⟨number, hassigned, hbehind, -, -, hwasId⟩ :=
    drawn_was_id_iff 2 [.create [("id", .string "3")], .delete "3"] hdraws
  exact ⟨hdraws, number, hassigned, hbehind, hwasId⟩

/-- A number that a client chose as a key is drawn once its row was deleted. -/
theorem drawn_after_delete :
    ticket.Draws (.create []) ∧
      "1" ∈ (after { entity := ticket } [.create [("id", .string "1")]]).ids ∧
      ((after { entity := ticket } [.create [("id", .string "1")], .delete "1"]).create []).1 =
        .ok [("id", .string "1")] := by
  decide

end Store

end CrudUi
