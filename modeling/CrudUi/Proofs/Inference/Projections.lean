import CrudUi.Inference.Views
import CrudUi.Proofs.Ascending.Members
import Mathlib.Data.List.Nodup

/-!
# The key and the views as projections of the fields

The primary key is the name of a field, and so is whatever the views show; if no two fields have one
name, the columns and the form show no name twice.
-/

namespace CrudUi

variable {fields : List Field} {key : Option String}

theorem mem_names_of_inferPrimaryKey {name : String} (h : inferPrimaryKey fields = some name) :
    name ∈ fields.map Field.name := by
  simp only [inferPrimaryKey] at h
  split at h
  · rename_i hid
    exact Option.some.inj h ▸ hid
  · split at h
    · rename_i hid
      exact Option.some.inj h ▸ hid
    · exact (List.mem_filter.mp (Ascending.least?_eq_some_iff.mp h).1).1

/-- Where no two fields have one name, a name is kept exactly if its field is. -/
theorem name_mem_names_filter_iff (h : (fields.map Field.name).Nodup) {field : Field}
    (hfield : field ∈ fields) {keep : Field → Bool} :
    field.name ∈ (fields.filter keep).map Field.name ↔ keep field = true := by
  rw [List.mem_map]
  constructor
  · rintro ⟨other, hother, hname⟩
    obtain ⟨hmem, hkeep⟩ := List.mem_filter.mp hother
    rwa [← List.inj_on_of_nodup_map h hmem hfield hname]
  · exact fun hkeep => ⟨field, List.mem_filter.mpr ⟨hfield, hkeep⟩, rfl⟩

/-! ### The columns of the list -/

/-- The columns, before the list is cut off: the scalar fields, in another order. -/
theorem exists_perm_prefix_listColumns (fields : List Field) (key : Option String) :
    ∃ columns, columns.Perm ((fields.filter (!·.type.isComposite)).map Field.name) ∧
      listColumns fields key <+: columns := by
  cases key with
  | none => exact ⟨_, .refl _, List.take_prefix _ _⟩
  | some key =>
    rw [listColumns]
    by_cases hkey : key ∈ (fields.filter (!·.type.isComposite)).map Field.name
    · exact ⟨_, (List.perm_cons_erase hkey).symm, by simpa [hkey] using List.take_prefix _ _⟩
    · exact ⟨_, .refl _, by simpa [hkey] using List.take_prefix _ _⟩

theorem listColumns_subset : listColumns fields key ⊆ fields.map Field.name := by
  obtain ⟨columns, hperm, hcut⟩ := exists_perm_prefix_listColumns fields key
  intro name hname
  have hmem := hperm.subset (hcut.subset hname)
  exact (List.filter_sublist.map Field.name).subset hmem

theorem nodup_listColumns (h : (fields.map Field.name).Nodup) : (listColumns fields key).Nodup := by
  obtain ⟨columns, hperm, hcut⟩ := exists_perm_prefix_listColumns fields key
  have hscalar := h.sublist ((List.filter_sublist (p := (!·.type.isComposite))).map Field.name)
  exact (hperm.nodup_iff.mpr hscalar).sublist hcut.sublist

/-! ### The form -/

/-- The form shows the fields that are offered, in another order. -/
theorem formFields_perm (fields : List Field) (key : Option String) :
    (formFields fields key).Perm ((fields.filter (isEditable key)).map Field.name) := by
  refine List.Perm.map _ ?_
  have hsplit := List.filter_append_perm (fun field : Field => field.required)
    (fields.filter (isEditable key))
  simpa only [List.filter_filter] using hsplit

theorem formFields_subset : formFields fields key ⊆ fields.map Field.name := by
  intro name hname
  have hmem := (formFields_perm fields key).subset hname
  exact (List.filter_sublist.map Field.name).subset hmem

theorem nodup_formFields (h : (fields.map Field.name).Nodup) : (formFields fields key).Nodup := by
  have hoffered := h.sublist ((List.filter_sublist (p := isEditable key)).map Field.name)
  exact (formFields_perm fields key).nodup_iff.mpr hoffered

end CrudUi
