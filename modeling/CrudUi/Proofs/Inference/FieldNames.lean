import Mathlib.Data.List.Basic
import CrudUi.Inference.Fields

/-!
# The names of fields

The fields of a schema are its properties, in ascending order of their names, so no two of them have
one name.
-/

namespace CrudUi

namespace Components

variable {components : Components}

/-- An object that is no list has a field for each of its properties, and any other schema none. -/
theorem names_objectFields (resolved : Resolved) :
    (components.objectFields resolved).map Field.name =
      if resolved.schema.isArray || !resolved.schema.isObjectShaped then []
      else Ascending.ofList (Entries.keys resolved.schema.properties) := by
  rw [objectFields]
  split
  · rfl
  · rw [List.map_filterMap]
    have hname : ∀ name ∈ Ascending.ofList (Entries.keys resolved.schema.properties),
        ((Entries.lookup name resolved.schema.properties).map fun property =>
          Field.ofProperty name (components.resolve property resolved.chain).schema
            (resolved.schema.required.contains name)).map Field.name = some name := by
      intro name hname
      obtain ⟨property, hproperty⟩ := Option.ne_none_iff_exists'.mp
        (mt Entries.lookup_eq_none_iff.mp (not_not_intro (Ascending.mem_ofList.mp hname)))
      rw [hproperty]
      rfl
    rw [List.filterMap_congr hname, List.filterMap_some]

theorem pairwise_names_objectFields (resolved : Resolved) :
    ((components.objectFields resolved).map Field.name).Pairwise (· < ·) := by
  rw [names_objectFields]
  split
  · exact .nil
  · exact Ascending.pairwise_ofList _

theorem pairwise_names_of_fieldsOf? {schema : Schema} {resolved : Resolved} {fields : List Field}
    (h : components.fieldsOf? schema resolved = some fields) :
    (fields.map Field.name).Pairwise (· < ·) := by
  obtain ⟨final, -, rfl⟩ := Option.map_eq_some_iff.mp h
  exact pairwise_names_objectFields final

end Components

end CrudUi
