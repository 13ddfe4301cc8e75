/-!
# Entries in insertion order

A table from names to values that remembers the order in which names first appeared.  Writing a
name that is already there changes its value and keeps its place, so a table built by `ofList`
holds each name once, with the last value it was given (`nodup_keys_ofList`,
`lookup_insert`).
-/

namespace CrudUi

/-- A table from names to values, in insertion order. -/
abbrev Entries (α : Type) := List (String × α)

namespace Entries

variable {α β : Type}

/-- The value stored under a name. -/
def lookup (key : String) : Entries α → Option α
  | [] => none
  | (k, v) :: rest => if k = key then some v else lookup key rest

/-- The names of a table, in order. -/
def keys (entries : Entries α) : List String :=
  entries.map Prod.fst

/-- Stores a value under a name: in place if the name is there, else at the end. -/
def insert (key : String) (value : α) : Entries α → Entries α
  | [] => [(key, value)]
  | (k, v) :: rest =>
    if k = key then (key, value) :: rest else (k, v) :: insert key value rest

/-- Writes every entry of `new` into `old`, in order. -/
def merge (old new : Entries α) : Entries α :=
  new.foldl (fun acc entry => insert entry.1 entry.2 acc) old

/-- The table that a list of assignments leaves behind. -/
def ofList (assignments : List (String × α)) : Entries α :=
  merge [] assignments

/-- Applies a function to every value. -/
def mapValues (f : α → β) (entries : Entries α) : Entries β :=
  entries.map fun entry => (entry.1, f entry.2)

theorem lookup_insert (key name : String) (value : α) (entries : Entries α) :
    lookup name (insert key value entries) =
      if key = name then some value else lookup name entries := by
  induction entries with
  | nil => simp [insert, lookup]
  | cons entry rest ih => grind [insert, lookup]

theorem lookup_append (front back : Entries α) (name : String) :
    lookup name (front ++ back) = (lookup name front).or (lookup name back) := by
  induction front with
  | nil => rfl
  | cons entry rest ih =>
    rw [List.cons_append, lookup, lookup, ih]
    split <;> rfl

theorem lookup_filter_ne {name other : String} (h : name ≠ other) (entries : Entries α) :
    lookup other (entries.filter (·.1 ≠ name)) = lookup other entries := by
  induction entries with
  | nil => rfl
  | cons entry rest ih => grind [lookup]

theorem mem_of_lookup {entries : Entries α} {key : String} {value : α}
    (h : lookup key entries = some value) : (key, value) ∈ entries := by
  induction entries with
  | nil => simp [lookup] at h
  | cons entry rest ih => grind [lookup]

theorem mem_keys_of_lookup {entries : Entries α} {key : String} {value : α}
    (h : lookup key entries = some value) : key ∈ keys entries := by
  induction entries with
  | nil => simp [lookup] at h
  | cons entry rest ih => grind [lookup, keys]

theorem lookup_eq_none_iff {entries : Entries α} {key : String} :
    lookup key entries = none ↔ key ∉ keys entries := by
  induction entries with
  | nil => simp [lookup, keys]
  | cons entry rest ih => grind [lookup, keys]

theorem lookup_of_mem {entries : Entries α} (hnodup : (keys entries).Nodup) {key : String}
    {value : α} (h : (key, value) ∈ entries) : lookup key entries = some value := by
  induction entries with
  | nil => simp at h
  | cons entry rest ih => grind [lookup, keys]

theorem merge_cons (old rest : Entries α) (entry : String × α) :
    merge old (entry :: rest) = merge (insert entry.1 entry.2 old) rest := rfl

theorem lookup_merge {new : Entries α} (hnodup : (keys new).Nodup) (old : Entries α)
    (name : String) : lookup name (merge old new) = (lookup name new).or (lookup name old) := by
  induction new generalizing old with
  | nil => rfl
  | cons entry rest ih =>
    obtain ⟨hfree, hrest⟩ := List.nodup_cons.mp hnodup
    rw [merge_cons, ih hrest, lookup_insert, lookup]
    by_cases hname : entry.1 = name
    · subst hname
      simp [lookup_eq_none_iff.mpr hfree]
    · simp [hname]

theorem lookup_ofList {assignments : List (String × α)} (hnodup : (keys assignments).Nodup)
    (name : String) : lookup name (ofList assignments) = lookup name assignments := by
  simp [ofList, lookup_merge hnodup, lookup]

theorem mem_keys_insert (key name : String) (value : α) (entries : Entries α) :
    name ∈ keys (insert key value entries) ↔ name = key ∨ name ∈ keys entries := by
  induction entries with
  | nil => simp [insert, keys]
  | cons entry rest ih => grind [insert, keys]

theorem mem_of_mem_insert {key : String} {value : α} {entry : String × α} {entries : Entries α}
    (h : entry ∈ insert key value entries) : entry = (key, value) ∨ entry ∈ entries := by
  induction entries with
  | nil => exact .inl (List.mem_singleton.mp h)
  | cons first rest ih => grind [insert]

theorem mem_of_mem_merge {entry : String × α} {old new : Entries α} (h : entry ∈ merge old new) :
    entry ∈ old ∨ entry ∈ new := by
  induction new generalizing old with
  | nil => exact .inl h
  | cons first rest ih =>
    rcases ih h with h | h
    · rcases mem_of_mem_insert h with rfl | h
      · exact .inr List.mem_cons_self
      · exact .inl h
    · exact .inr (List.mem_cons_of_mem _ h)

theorem nodup_keys_insert (key : String) (value : α) {entries : Entries α}
    (h : (keys entries).Nodup) : (keys (insert key value entries)).Nodup := by
  induction entries with
  | nil => simp [insert, keys]
  | cons entry rest ih =>
    have := mem_keys_insert key entry.1 value rest
    grind [insert, keys]

theorem nodup_keys_merge {old : Entries α} (new : Entries α) (h : (keys old).Nodup) :
    (keys (merge old new)).Nodup := by
  induction new generalizing old with
  | nil => exact h
  | cons entry rest ih => exact ih (nodup_keys_insert entry.1 entry.2 h)

theorem nodup_keys_ofList (assignments : List (String × α)) :
    (keys (ofList assignments)).Nodup :=
  nodup_keys_merge assignments List.nodup_nil

theorem insert_of_notMem {key : String} (value : α) {entries : Entries α}
    (h : key ∉ keys entries) : insert key value entries = entries ++ [(key, value)] := by
  induction entries with
  | nil => rfl
  | cons entry rest ih =>
    obtain ⟨hne, hrest⟩ := List.ne_and_not_mem_of_not_mem_cons h
    rw [insert, if_neg hne.symm, ih hrest]
    rfl

theorem insert_of_lookup {key : String} {value : α} {entries : Entries α}
    (h : lookup key entries = some value) : insert key value entries = entries := by
  induction entries with
  | nil => simp [lookup] at h
  | cons entry rest ih => grind [insert, lookup]

theorem insert_insert (key : String) (value value' : α) (entries : Entries α) :
    insert key value' (insert key value entries) = insert key value' entries := by
  induction entries with
  | nil => simp [insert]
  | cons entry rest ih => grind [insert]

theorem merge_of_nodup {old new : Entries α} (h : (keys old ++ keys new).Nodup) :
    merge old new = old ++ new := by
  induction new generalizing old with
  | nil => exact (List.append_nil old).symm
  | cons entry rest ih =>
    have hfree : entry.1 ∉ keys old := fun hmem =>
      (List.nodup_append.mp h).2.2 _ hmem _ List.mem_cons_self rfl
    have hkeys : keys (old ++ [entry]) ++ keys rest = keys old ++ keys (entry :: rest) := by
      simp [keys]
    rw [merge_cons, insert_of_notMem _ hfree, ih (hkeys ▸ h), List.append_assoc]
    rfl

/-- Assignments to different names are a table already. -/
theorem ofList_of_nodup {assignments : List (String × α)} (h : (keys assignments).Nodup) :
    ofList assignments = assignments :=
  merge_of_nodup h

end Entries

end CrudUi
