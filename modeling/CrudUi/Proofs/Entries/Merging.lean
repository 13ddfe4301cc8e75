import CrudUi.Entries

/-!
# Writing tables over each other

Writing a table over another one keeps the names of both.  Tables that are written over a table one
after the other can be written over each other first, and the outcome over the table then: the same
names stand in the same order, with the same values (`Entries.merge_merge`).  The table in between
has to hold each name once, since of a name that stands there twice only the first entry is changed.
-/

namespace CrudUi.Entries

variable {α : Type} {key other : String} {old new : Entries α}

theorem mem_keys_merge (old new : Entries α) (name : String) :
    name ∈ keys (merge old new) ↔ name ∈ keys old ∨ name ∈ keys new := by
  induction new generalizing old with
  | nil => simp [merge, keys]
  | cons entry rest ih =>
    rw [merge_cons, ih, mem_keys_insert, or_assoc, or_left_comm]
    exact or_congr_right List.mem_cons.symm

/-- Two values that are written one after the other do not disturb each other, where the name of
one has its place already. -/
theorem insert_insert_comm (hmem : key ∈ keys old) (hne : key ≠ other) (value value' : α) :
    insert key value (insert other value' old) = insert other value' (insert key value old) := by
  induction old with
  | nil => simp [keys] at hmem
  | cons entry rest ih => grind [insert, keys]

theorem insert_merge (hmem : key ∈ keys old) (hfree : key ∉ keys new) (value : α) :
    insert key value (merge old new) = merge (insert key value old) new := by
  induction new generalizing old with
  | nil => rfl
  | cons entry rest ih =>
    obtain ⟨hne, hfree⟩ := List.ne_and_not_mem_of_not_mem_cons hfree
    have hmem' : key ∈ keys (insert entry.1 entry.2 old) := (mem_keys_insert ..).mpr (.inr hmem)
    rw [merge_cons, merge_cons, ih hmem' hfree, insert_insert_comm hmem hne]

theorem merge_insert (hnodup : (keys new).Nodup) (old : Entries α) (key : String) (value : α) :
    merge old (insert key value new) = insert key value (merge old new) := by
  induction new generalizing old with
  | nil => rfl
  | cons entry rest ih =>
    obtain ⟨hfree, hrest⟩ := List.nodup_cons.mp hnodup
    rw [insert]
    split
    · rename_i heq
      subst heq
      -- The old value gives the name its place; nothing in `rest` stands under it.
      have hmem : entry.1 ∈ keys (insert entry.1 entry.2 old) := (mem_keys_insert ..).mpr (.inl rfl)
      rw [merge_cons, merge_cons, insert_merge hmem hfree, insert_insert]
    · rw [merge_cons, merge_cons, ih hrest]

/-- Writing over is associative. -/
theorem merge_merge {middle : Entries α} (hnodup : (keys middle).Nodup) (old new : Entries α) :
    merge old (merge middle new) = merge (merge old middle) new := by
  induction new generalizing middle with
  | nil => rfl
  | cons entry rest ih =>
    rw [merge_cons, merge_cons, ih (nodup_keys_insert entry.1 entry.2 hnodup),
      merge_insert hnodup]

/-- A list of entries is written over a table like the table that it leaves behind. -/
theorem merge_ofList (old new : Entries α) : merge old (ofList new) = merge old new := by
  have hnodup : (keys ([] : Entries α)).Nodup := List.nodup_nil
  exact merge_merge hnodup old new

theorem lookup_merge_ofList (old new : Entries α) (name : String) :
    lookup name (merge old new) = (lookup name (ofList new)).or (lookup name old) := by
  rw [← merge_ofList, lookup_merge (nodup_keys_ofList new)]

end CrudUi.Entries
