import CrudUi.Proofs.Store.Counter
import Mathlib.Algebra.Group.Nat.Defs
import Mathlib.Order.Bounds.Basic

/-!
# The search for a free number

A store looks for a free number by trying one after another, from the counter on, and moves the
counter past each number that it tries.  Since no two numbers have the same text, the numbers that
are ids are at most as many as the rows, and the search ends within one round more than there are
rows, at the least free number (`Store.searches_iff_of_room`).  The counter is not raised beyond a
limit meanwhile, if it has room for as many numbers as there are rows.

Along a run the counter stands behind every number that was found, so the numbers found ascend
(`Store.pairwise_freeNumber_drawing`).

## Main definitions

* `Store.Searches` : the search, with the number of rounds that it takes.
* `Store.drawing` : the stores of a run from which a number is drawn.
-/

namespace CrudUi.Store

variable {store start : Store} {limit rounds number : ℕ} {found : String × Store}

/-! ### The least free number -/

/-- The numbers from the counter on that are the id of no row. -/
def freeNumbers (store : Store) : Set ℕ :=
  {number | store.nextId ≤ number ∧ toString number ∉ store.ids}

theorem isLeast_freeNumber (store : Store) : IsLeast store.freeNumbers store.freeNumber := by
  refine ⟨⟨store.nextId_le_freeNumber, store.freeNumber_notMem_ids⟩, fun other hother => ?_⟩
  by_contra hless
  have htaken := (List.find?_range'_eq_some.mp store.find?_eq_freeNumber).2.2 other hother.1
    (Nat.lt_of_not_le hless)
  exact hother.2 (by simpa only [Bool.not_eq_true', decide_eq_false_iff_not, not_not] using htaken)

theorem freeNumber_le (store : Store) : store.freeNumber ≤ store.nextId + store.rows.length := by
  have hmem := List.mem_of_find?_eq_some store.find?_eq_freeNumber
  have hlt := (List.mem_range'_1.mp hmem).2
  omega

/-! ### One round after another -/

/-- The store whose counter is moved on by one number. -/
def passNumber (store : Store) : Store :=
  { store with nextId := store.nextId + 1 }

@[simp] theorem ids_passNumber (store : Store) : store.passNumber.ids = store.ids :=
  rfl

/-- So many rounds lead to this number and leave this store: a round tries the number at which the
counter stands and moves the counter on, as long as it has not reached the limit. -/
inductive Searches (limit : ℕ) : ℕ → Store → String × Store → Prop
  | free {store : Store} (hroom : store.nextId < limit)
      (hfree : store.position? (toString store.nextId) = none) :
      Searches limit 1 store (toString store.nextId, store.passNumber)
  | taken {store : Store} {rounds : ℕ} {found : String × Store} (hroom : store.nextId < limit)
      (htaken : store.position? (toString store.nextId) ≠ none)
      (hrest : Searches limit rounds store.passNumber found) :
      Searches limit (rounds + 1) store found

/-- A search takes one course. -/
theorem Searches.unique {rounds' : ℕ} {found' : String × Store}
    (h : Searches limit rounds store found) (h' : Searches limit rounds' store found') :
    rounds = rounds' ∧ found = found' := by
  induction h generalizing rounds' found' with
  | free hroom hfree =>
    cases h' with
    | free => exact ⟨rfl, rfl⟩
    | taken _ htaken _ => exact absurd hfree htaken
  | taken hroom htaken hrest ih =>
    cases h' with
    | free _ hfree => exact absurd hfree htaken
    | taken _ _ hrest' =>
      obtain ⟨rfl, rfl⟩ := ih hrest'
      exact ⟨rfl, rfl⟩

/-- The search comes to the least free number, if that lies below the limit. -/
theorem searches_of_isLeast {distance : ℕ} (hleast : IsLeast store.freeNumbers number)
    (hdistance : number = store.nextId + distance) (hlimit : number < limit) :
    Searches limit (distance + 1) store (toString number, { store with nextId := number + 1 }) := by
  induction distance generalizing store with
  | zero =>
    obtain rfl : number = store.nextId := hdistance
    exact .free hlimit (position?_eq_none_iff.mpr hleast.1.2)
  | succ distance ih =>
    have htaken : toString store.nextId ∈ store.ids := by
      by_contra hfree
      have hle := hleast.2 ⟨Nat.le_refl _, hfree⟩
      omega
    have hpass : number = store.passNumber.nextId + distance := by
      simp only [passNumber]
      omega
    have hleast' : IsLeast store.passNumber.freeNumbers number :=
      ⟨⟨Nat.le.intro hpass.symm, hleast.1.2⟩,
        fun other hother => hleast.2 ⟨Nat.le_of_succ_le hother.1, hother.2⟩⟩
    exact .taken (by omega) (mt position?_eq_none_iff.mp (not_not_intro htaken)) (ih hleast' hpass)

/-- With room for as many numbers as there are rows, the search ends within one round more. -/
theorem searches_iff_of_room (hroom : store.nextId + store.rows.length < limit) :
    ∃ rounds ≤ store.rows.length + 1, ∀ rounds' found,
      Searches limit rounds' store found ↔ rounds' = rounds ∧ found = store.allocate := by
  have hle := store.freeNumber_le
  obtain ⟨distance, hdistance⟩ := Nat.exists_eq_add_of_le store.nextId_le_freeNumber
  have hsearch : Searches limit (distance + 1) store store.allocate :=
    searches_of_isLeast store.isLeast_freeNumber hdistance (by omega)
  refine ⟨distance + 1, by omega, fun rounds' found => ⟨fun h => h.unique hsearch, ?_⟩⟩
  rintro ⟨rfl, rfl⟩
  exact hsearch

/-! ### Runs -/

/-- The stores from which a number is drawn, one after another, along a run. -/
def drawing (start : Store) : List StoreRequest → List Store
  | [] => []
  | request :: rest =>
    if start.entity.Draws request then start :: drawing (start.run request).2 rest
    else drawing (start.run request).2 rest

/-- Numbers drawn later in a run lie at or behind the counter. -/
theorem nextId_le_of_mem_drawing {requests : List StoreRequest}
    (h : store ∈ start.drawing requests) : start.nextId ≤ store.nextId := by
  induction requests generalizing start with
  | nil => exact absurd h List.not_mem_nil
  | cons request rest ih =>
    have hrest : store ∈ drawing (start.run request).2 rest → start.nextId ≤ store.nextId :=
      fun h => (nextId_le_nextId_run start request).trans (ih h)
    rw [drawing] at h
    split at h
    · rcases List.mem_cons.mp h with rfl | h
      · exact Nat.le_refl _
      · exact hrest h
    · exact hrest h

/-- The numbers that are drawn along a run ascend. -/
theorem pairwise_freeNumber_drawing (start : Store) (requests : List StoreRequest) :
    ((start.drawing requests).map freeNumber).Pairwise (· < ·) := by
  induction requests generalizing start with
  | nil => exact .nil
  | cons request rest ih =>
    rw [drawing]
    split
    next hdraws =>
      rw [List.map_cons, List.pairwise_cons]
      refine ⟨?_, ih _⟩
      intro number hnumber
      obtain ⟨later, hlater, rfl⟩ := List.mem_map.mp hnumber
      have hnext : (start.run request).2.nextId = start.freeNumber + 1 := by
        rw [nextId_run, if_pos hdraws]
      calc start.freeNumber
        _ < (start.run request).2.nextId := by omega
        _ ≤ later.nextId := nextId_le_of_mem_drawing hlater
        _ ≤ later.freeNumber := later.nextId_le_freeNumber
    next => exact ih _

/-- What a store hands out as an id is the text of the least number from the counter on that is the
id of no row, found in at most one round more than there are rows, and nothing changes but that the
counter then stands behind it.  Along any run the numbers handed out ascend, so no id is handed out
twice, and each is free when it is handed out; they lie below the limit of the counter, if there is
room for the rows whenever one is drawn. -/
theorem allocate_least_free (limit : ℕ) :
    (∀ store : Store, store.nextId + store.rows.length < limit →
      (∃ number, IsLeast store.freeNumbers number ∧
        store.allocate = (toString number, { store with nextId := number + 1 })) ∧
      ∃ rounds ≤ store.rows.length + 1, ∀ rounds' found,
        Searches limit rounds' store found ↔ rounds' = rounds ∧ found = store.allocate) ∧
    ∀ (start : Store) (requests : List StoreRequest),
      (∃ numbers : List ℕ, numbers.Pairwise (· < ·) ∧
        (start.drawing requests).map (·.allocate.1) = numbers.map toString ∧
        ((∀ store ∈ start.drawing requests, store.nextId + store.rows.length < limit) →
          ∀ number ∈ numbers, number < limit)) ∧
      ((start.drawing requests).map (·.allocate.1)).Nodup ∧
      ∀ store ∈ start.drawing requests, store.position? store.allocate.1 = none := by
  refine ⟨fun store hroom => ⟨⟨_, store.isLeast_freeNumber, rfl⟩, searches_iff_of_room hroom⟩,
    fun start requests => ?_⟩
  have hascend := start.pairwise_freeNumber_drawing requests
  have htexts : (start.drawing requests).map (·.allocate.1) =
      ((start.drawing requests).map freeNumber).map toString := by
    rw [List.map_map]
    rfl
  refine ⟨⟨_, hascend, htexts, fun hroom number hnumber => ?_⟩, ?_, fun store _ => ?_⟩
  · obtain ⟨store, hstore, rfl⟩ := List.mem_map.mp hnumber
    exact Nat.lt_of_le_of_lt store.freeNumber_le (hroom store hstore)
  · rw [htexts]
    exact hascend.nodup.map toString_nat_injective
  · exact position?_eq_none_iff.mpr store.freeNumber_notMem_ids

/-- Two tickets that clients have numbered. -/
def numberedTickets : Store where
  entity := ticket
  rows := [[("id", .string "2")], [("id", .string "1")]]

/-- Both numbers are passed before one is found; the ticket under it goes, and the number stays. -/
def ticketRequests : List StoreRequest :=
  [.create [], .delete "3", .create [("id", .null)]]

theorem allocate_least_free_tickets :
    numberedTickets.nextId + numberedTickets.rows.length < 2 ^ 64 - 1 ∧
      numberedTickets.allocate = ("3", { numberedTickets with nextId := 4 }) ∧
      (∀ store ∈ numberedTickets.drawing ticketRequests,
        store.nextId + store.rows.length < 2 ^ 64 - 1) ∧
      (numberedTickets.drawing ticketRequests).map (·.allocate.1) = ["3", "4"] ∧
      (∃ numbers : List ℕ, ["3", "4"] = numbers.map toString ∧ numbers.Pairwise (· < ·) ∧
        ∀ number ∈ numbers, number < 2 ^ 64 - 1) := by
  obtain ⟨hone, hrun⟩ := allocate_least_free (2 ^ 64 - 1)
  have hroom : numberedTickets.nextId + numberedTickets.rows.length < 2 ^ 64 - 1 := by decide
  have hrooms : ∀ store ∈ numberedTickets.drawing ticketRequests,
      store.nextId + store.rows.length < 2 ^ 64 - 1 := by decide
  have htexts : (numberedTickets.drawing ticketRequests).map (·.allocate.1) = ["3", "4"] := by
    decide
  obtain ⟨-, rounds, -, hsearch⟩ := hone numberedTickets hroom
  have hthird : Searches (2 ^ 64 - 1) 3 numberedTickets
      ("3", { numberedTickets with nextId := 4 }) :=
    .taken (by decide) (by decide) (.taken (by decide) (by decide)
      (.free (by decide) (by decide)))
  obtain ⟨⟨numbers, hascend, hnumbers, hbelow⟩, -⟩ := hrun numberedTickets ticketRequests
  exact ⟨hroom, ((hsearch 3 _).mp hthird).2.symm, hrooms, htexts, numbers,
    htexts.symm.trans hnumbers, hascend, hbelow hrooms⟩

end CrudUi.Store
