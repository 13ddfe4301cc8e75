import CrudUi.Ascending

/-!
# Changing the values of a table

A function that is applied to every value of a table leaves the names where they are.  A table can
therefore be looked up, filtered by its names, merged or altered before the function is applied or
after.
-/

namespace CrudUi

namespace Entries

variable {α β : Type} (f : α → β)

theorem keys_mapValues (entries : Entries α) : keys (mapValues f entries) = keys entries := by
  rw [keys, mapValues, List.map_map]
  rfl

theorem lookup_mapValues (key : String) (entries : Entries α) :
    lookup key (mapValues f entries) = (lookup key entries).map f := by
  induction entries with
  | nil => rfl
  | cons entry rest ih =>
    rw [mapValues, List.map_cons, lookup, lookup, apply_ite (Option.map f)]
    exact congrArg _ ih

theorem filter_mapValues (keep : String → Bool) (entries : Entries α) :
    (mapValues f entries).filter (fun entry => keep entry.1) =
      mapValues f (entries.filter fun entry => keep entry.1) :=
  List.filter_map

theorem insert_mapValues (key : String) (value : α) (entries : Entries α) :
    insert key (f value) (mapValues f entries) = mapValues f (insert key value entries) := by
  induction entries with
  | nil => rfl
  | cons entry rest ih => grind [insert, mapValues]

theorem merge_mapValues (old new : Entries α) :
    merge (mapValues f old) (mapValues f new) = mapValues f (merge old new) := by
  induction new generalizing old with
  | nil => rfl
  | cons entry rest ih =>
    rw [merge_cons old, ← ih, ← insert_mapValues]
    rfl

/-! ### Names that are left out -/

section Filter

variable (keep : String → Bool) (entries : Entries α)

theorem filter_insert (key : String) (value : α) :
    (insert key value entries).filter (fun entry => keep entry.1) =
      if keep key then insert key value (entries.filter fun entry => keep entry.1)
      else entries.filter fun entry => keep entry.1 := by
  induction entries with
  | nil => by_cases hkey : keep key <;> simp [insert, hkey]
  | cons entry rest ih => grind [insert]

theorem filter_merge (old new : Entries α) :
    (merge old new).filter (fun entry => keep entry.1) =
      merge (old.filter fun entry => keep entry.1) (new.filter fun entry => keep entry.1) := by
  induction new generalizing old with
  | nil => rfl
  | cons entry rest ih =>
    rw [merge_cons, ih, filter_insert]
    by_cases hkey : keep entry.1
    · rw [if_pos hkey, List.filter_cons, if_pos hkey]
      rfl
    · rw [if_neg hkey, List.filter_cons, if_neg hkey]

end Filter

end Entries

/-- If two updates do the same before and after the function is applied, so do the tables that they
make. -/
theorem Ascending.Table.alter_mapValues {α β : Type} {f : α → β} {update : Option α → α}
    {update' : Option β → β} (h : ∀ found, update' (found.map f) = f (update found)) (key : String)
    (table : Table α) :
    alter key update' (Entries.mapValues f table) =
      Entries.mapValues f (alter key update table) := by
  have hnone : update' none = f (update none) := h none
  have hsome : ∀ value, update' (some (f value)) = f (update (some value)) := fun value =>
    h (some value)
  induction table with
  | nil => rw [Entries.mapValues, List.map_nil, alter, alter, hnone]; rfl
  | cons entry rest ih => grind [alter, Entries.mapValues]

end CrudUi
