import CrudUi.Proofs.Store.Counter

/-!
# Requests that are refused

A request that is refused leaves the rows of a store as they are.  It leaves the whole store as it
is unless it is to create a record that draws a number: the number is drawn before the record is
looked at, and it is used up although the record is refused (`Store.run_of_refused`).  So later
requests are answered as if the refused one had not been made, up to the next that draws a number.

## Main definitions

* `Store.answers` : the answers to requests, one after another.
-/

namespace CrudUi

namespace Store

variable {store : Store} {request : StoreRequest} {error : AppError}

/-- The answers to requests, one after another. -/
def answers (store : Store) : List StoreRequest → List (Except AppError StoreReply)
  | [] => []
  | request :: rest => (store.run request).1 :: (store.run request).2.answers rest

/-! ### Stores that differ in the counter -/

section Counters

variable (store) (nextId : Nat) (id : String) (input : Record)

theorem update_withNextId :
    update { store with nextId } id input =
      ((store.update id input).1, { (store.update id input).2 with nextId }) := by
  cases hposition : store.position? id with
  | none =>
    have hother : position? { store with nextId } id = none := hposition
    rw [update_of_position?_eq_none hposition, update_of_position?_eq_none hother]
  | some index =>
    obtain ⟨row, hrow, -⟩ := exists_row_of_position? hposition
    have hother : position? { store with nextId } id = some index := hposition
    rw [update_eq hposition hrow, update_eq hother hrow]
    cases store.entity.validate (Entries.merge row input) <;> rfl

theorem delete_withNextId :
    delete { store with nextId } id =
      ((store.delete id).1, { (store.delete id).2 with nextId }) := by
  cases hposition : store.position? id with
  | none =>
    have hother : position? { store with nextId } id = none := hposition
    rw [delete_of_position?_eq_none hposition, delete_of_position?_eq_none hother]
  | some index =>
    obtain ⟨row, hrow, -⟩ := exists_row_of_position? hposition
    have hother : position? { store with nextId } id = some index := hposition
    rw [delete_eq hposition hrow, delete_eq hother hrow]

variable {input}

theorem create_withNextId (hdraws : ¬ store.entity.Draws (.create input)) :
    create { store with nextId } input =
      ((store.create input).1, { (store.create input).2 with nextId }) := by
  have hother : assignKey { store with nextId } input = (input, { store with nextId }) :=
    assignKey_of_not_draws hdraws
  have hcheck : checkNew { store with nextId } input = store.checkNew input := rfl
  rw [create_eq, create_eq, assignKey_of_not_draws hdraws, hother, hcheck]
  cases store.checkNew input <;> rfl

/-- The counter matters to requests that draw a number alone. -/
theorem run_withNextId (hdraws : ¬ store.entity.Draws request) :
    run { store with nextId } request =
      ((store.run request).1, { (store.run request).2 with nextId }) := by
  cases request with
  | list => rfl
  | read id => rfl
  | create input => simp only [run, create_withNextId store nextId hdraws]
  | update id input => simp only [run, update_withNextId]
  | delete id => simp only [run, delete_withNextId]

end Counters

theorem answers_withNextId (nextId : Nat) {requests : List StoreRequest}
    (hdraws : ∀ request ∈ requests, ¬ store.entity.Draws request) :
    answers { store with nextId } requests = store.answers requests := by
  induction requests generalizing store with
  | nil => rfl
  | cons request rest ih =>
    have hrun := run_withNextId store nextId (hdraws request List.mem_cons_self)
    have hentity := (run_outcome store request).entity_eq
    rw [answers, answers, hrun]
    refine congrArg _ (ih fun later hlater => ?_)
    rw [hentity]
    exact hdraws later (List.mem_cons_of_mem _ hlater)

/-! ### Refused requests -/

theorem rows_run_of_refused (h : (store.run request).1 = .error error) :
    (store.run request).2.rows = store.rows := by
  have hstep := run_step store request
  generalize (store.run request).1 = answer, (store.run request).2 = next at hstep h ⊢
  cases hstep with
  | listed | read | updateRefused | deleteRefused => rfl
  | createRefused input => exact assignKey_rows store input
  | created | updated | deleted => simp at h

/-- A request that is refused changes nothing but the counter, and that only if it draws a number.
Later requests that draw none are answered as if it had not been made. -/
theorem run_of_refused (h : (store.run request).1 = .error error) :
    (store.run request).2 = { store with
      nextId := if store.entity.Draws request then store.freeNumber + 1 else store.nextId } ∧
    ((store.run request).2 = store ↔ ¬ store.entity.Draws request) ∧
    ∀ requests, (∀ later ∈ requests, ¬ store.entity.Draws later) →
      (store.run request).2.answers requests = store.answers requests := by
  have hnext : (store.run request).2 = { store with
      nextId := if store.entity.Draws request then store.freeNumber + 1 else store.nextId } := by
    rw [← nextId_run, ← rows_run_of_refused h, ← (run_outcome store request).entity_eq]
  refine ⟨hnext, ?_, fun requests hdraws => ?_⟩
  · rw [hnext]
    split
    next hdraws =>
      refine iff_of_false (fun heq => ?_) (not_not.mpr hdraws)
      have hcounter := congrArg nextId heq
      have := store.nextId_le_freeNumber
      simp only at hcounter
      omega
    next hdraws => exact iff_of_true rfl hdraws
  · rw [hnext]
    exact answers_withNextId _ hdraws

/-- A ticket with a number of seats. -/
def seatedTicket : Entity :=
  { ticket with fields := ticket.fields ++
      [{ name := "seats", label := "Seats", type := .integer, required := false }] }

theorem run_of_refused_seatedTicket :
    (run { entity := seatedTicket } (.create [("seats", .string "two")])).1 =
      .error (.invalid "Ticket" [.wrongType "seats" .integer]) ∧
    (run { entity := seatedTicket } (.create [("seats", .string "two")])).2 =
      { entity := seatedTicket, nextId := 2 } ∧
    (run { entity := seatedTicket } (.create [("seats", .string "two")])).2.answers
      [.create [("id", .string "a")], .delete "a"] =
      answers { entity := seatedTicket } [.create [("id", .string "a")], .delete "a"] := by
  have hrefused : (run { entity := seatedTicket } (.create [("seats", .string "two")])).1 =
      .error (.invalid "Ticket" [.wrongType "seats" .integer]) := by decide
  obtain ⟨hnext, -, hanswers⟩ := run_of_refused hrefused
  exact ⟨hrefused, hnext, hanswers _ (by decide)⟩

/-- A record that is refused uses up a number, and the next record gets another. -/
theorem number_used_up_by_refused :
    (run { entity := seatedTicket } (.create [("seats", .string "two")])).1 =
      .error (.invalid "Ticket" [.wrongType "seats" .integer]) ∧
    (run { entity := seatedTicket } (.create [("seats", .string "two")])).2 ≠
      { entity := seatedTicket } ∧
    answers { entity := seatedTicket } [.create []] = [.ok (.row [("id", .string "1")])] ∧
    (run { entity := seatedTicket } (.create [("seats", .string "two")])).2.answers
      [.create []] = [.ok (.row [("id", .string "2")])] := by
  decide

end Store

end CrudUi
