import CrudUi.Entries

/-!
# Ascending lists of names

A set of names is kept as the list of its members in ascending order, which is the order of
their UTF-8 bytes.  `ofList` sorts and drops repetitions (`mem_ofList`, `pairwise_ofList`).  The
same order keeps tables by name in `Ascending.Table`.
-/

namespace CrudUi.Ascending

/-- Adds a name to an ascending list that may hold it already. -/
def insert (name : String) : List String → List String
  | [] => [name]
  | other :: rest =>
    if name < other then name :: other :: rest
    else if name = other then other :: rest
    else other :: insert name rest

/-- The members of a list, ascending and each once. -/
def ofList (names : List String) : List String :=
  names.foldr insert []

/-- The least member of a list. -/
def least? (names : List String) : Option String :=
  names.foldl (fun found name => match found with
    | none => some name
    | some best => if name < best then some name else some best) none

theorem mem_insert {name other : String} {names : List String} :
    other ∈ insert name names ↔ other = name ∨ other ∈ names := by
  induction names with
  | nil => simp [insert]
  | cons first rest ih => grind [insert]

theorem mem_ofList {name : String} {names : List String} :
    name ∈ ofList names ↔ name ∈ names := by
  induction names with
  | nil => simp [ofList]
  | cons first rest ih => simpa [ofList, mem_insert] using or_congr_right ih

theorem pairwise_insert (name : String) {names : List String} (h : names.Pairwise (· < ·)) :
    (insert name names).Pairwise (· < ·) := by
  induction names with
  | nil => simp [insert]
  | cons first rest ih =>
    have hmem := @mem_insert name
    rw [List.pairwise_cons] at h
    rw [insert]
    split
    · rename_i hlt
      refine List.pairwise_cons.2 ⟨fun other hother => ?_, List.pairwise_cons.2 h⟩
      rcases List.mem_cons.1 hother with rfl | hin
      · exact hlt
      · exact String.lt_trans hlt (h.1 _ hin)
    · split
      · exact List.pairwise_cons.2 h
      · rename_i hnlt hne
        refine List.pairwise_cons.2 ⟨fun other hother => ?_, ih h.2⟩
        rcases mem_insert.1 hother with rfl | hin
        · exact Std.lt_of_le_of_ne (Std.not_lt.1 hnlt) (Ne.symm hne)
        · exact h.1 _ hin

theorem pairwise_ofList (names : List String) : (ofList names).Pairwise (· < ·) := by
  induction names with
  | nil => exact List.Pairwise.nil
  | cons first rest ih => exact pairwise_insert first ih

/-- A table whose names ascend. -/
abbrev Table (α : Type) := Entries α

namespace Table

variable {α : Type}

/-- Stores under a name what `update` makes of the value found there. -/
def alter (key : String) (update : Option α → α) : Table α → Table α
  | [] => [(key, update none)]
  | (k, v) :: rest =>
    if key < k then (key, update none) :: (k, v) :: rest
    else if k = key then (k, update (some v)) :: rest
    else (k, v) :: alter key update rest

/-- Stores a value under a name. -/
def insert (key : String) (value : α) (table : Table α) : Table α :=
  alter key (fun _ => value) table

/-- The table that a list of assignments leaves behind. -/
def ofList (assignments : List (String × α)) : Table α :=
  assignments.foldl (fun table entry => insert entry.1 entry.2 table) []

theorem keys_alter (key : String) (update : Option α → α) (table : Table α) :
    Entries.keys (alter key update table) = Ascending.insert key (Entries.keys table) := by
  induction table with
  | nil => rfl
  | cons entry rest ih => grind [alter, Ascending.insert, Entries.keys]

theorem lookup_alter {table : Table α} (h : (Entries.keys table).Pairwise (· < ·))
    (key name : String) (update : Option α → α) :
    Entries.lookup name (alter key update table) =
      if key = name then some (update (Entries.lookup key table))
      else Entries.lookup name table := by
  induction table with
  | nil => simp [alter, Entries.lookup]
  | cons entry rest ih =>
    obtain ⟨other, value⟩ := entry
    obtain ⟨hless, hrest⟩ := List.pairwise_cons.mp h
    rw [alter]
    split
    · rename_i hlt
      have hfree : key ∉ Entries.keys ((other, value) :: rest) := by
        rintro hmem
        rcases List.mem_cons.mp hmem with rfl | hmem
        · exact String.lt_irrefl _ hlt
        · exact String.lt_irrefl _ (String.lt_trans hlt (hless key hmem))
      rw [Entries.lookup_eq_none_iff.mpr hfree, Entries.lookup]
    · split
      · rename_i hother
        subst hother
        simp only [Entries.lookup, if_true]
        split <;> rfl
      · rename_i hother
        simp only [Entries.lookup, ih hrest, if_neg hother]
        by_cases hname : key = name
        · simp [hname, hname ▸ hother]
        · simp [hname]

/-- What is stored is found again, also in a table whose names do not ascend. -/
theorem lookup_insert (key name : String) (value : α) (table : Table α) :
    Entries.lookup name (insert key value table) =
      if key = name then some value else Entries.lookup name table := by
  induction table with
  | nil => simp [insert, alter, Entries.lookup]
  | cons entry rest ih => grind [insert, alter, Entries.lookup]

theorem pairwise_keys_alter {table : Table α} (h : (Entries.keys table).Pairwise (· < ·))
    (key : String) (update : Option α → α) :
    (Entries.keys (alter key update table)).Pairwise (· < ·) := by
  rw [keys_alter]
  exact pairwise_insert key h

theorem insert_of_forall_lt {key : String} (value : α) {table : Table α}
    (h : ∀ name ∈ Entries.keys table, name < key) :
    insert key value table = table ++ [(key, value)] := by
  induction table with
  | nil => rfl
  | cons entry rest ih =>
    obtain ⟨hfirst, hrest⟩ := List.forall_mem_cons.mp h
    have hne : entry.1 ≠ key := fun heq => String.lt_irrefl _ (heq ▸ hfirst)
    rw [insert, alter, if_neg (String.lt_asymm hfirst), if_neg hne]
    exact congrArg _ (ih hrest)

theorem foldl_insert_of_pairwise {old new : Table α}
    (h : (Entries.keys old ++ Entries.keys new).Pairwise (· < ·)) :
    new.foldl (fun table entry => insert entry.1 entry.2 table) old = old ++ new := by
  induction new generalizing old with
  | nil => exact (List.append_nil old).symm
  | cons entry rest ih =>
    have hless : ∀ name ∈ Entries.keys old, name < entry.1 := fun name hmem =>
      (List.pairwise_append.mp h).2.2 name hmem _ List.mem_cons_self
    have hkeys : Entries.keys (old ++ [entry]) ++ Entries.keys rest =
        Entries.keys old ++ Entries.keys (entry :: rest) := by
      simp [Entries.keys]
    rw [List.foldl_cons, insert_of_forall_lt _ hless, ih (hkeys ▸ h), List.append_assoc]
    rfl

/-- Assignments to ascending names are a table already. -/
theorem ofList_of_pairwise {assignments : List (String × α)}
    (h : (Entries.keys assignments).Pairwise (· < ·)) : ofList assignments = assignments :=
  foldl_insert_of_pairwise h

theorem pairwise_keys_ofList (assignments : List (String × α)) :
    (Entries.keys (ofList assignments)).Pairwise (· < ·) := by
  suffices h : ∀ table : Table α, (Entries.keys table).Pairwise (· < ·) →
      (Entries.keys (assignments.foldl
        (fun table entry => insert entry.1 entry.2 table) table)).Pairwise (· < ·) from
    h [] .nil
  induction assignments with
  | nil => exact fun _ h => h
  | cons entry rest ih => exact fun table h => ih _ (pairwise_keys_alter h _ _)

end Table

end CrudUi.Ascending
