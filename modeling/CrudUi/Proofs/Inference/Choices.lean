import CrudUi.Proofs.Inference.Unwrapping
import CrudUi.Proofs.Resolution.Choices

/-!
# Fields do not depend on the branches of choices

A property with a choice has an unknown kind of value, whatever its branches say, and a schema with
a choice has the fields of its own properties.  So the fields are the same without the contents of
all choices (`Components.fields?_eraseChoices`, `Components.namedFields?_eraseChoices`).  A document
without them is smaller, and with it the bound on the steps into items, which is never noticed.
-/

namespace CrudUi.Components

variable (components : Components) (resolved : Resolved)

theorem enterItems?_eraseChoices :
    components.eraseChoices.enterItems? resolved.eraseChoices =
      (components.enterItems? resolved).map Resolved.eraseChoices := by
  rw [enterItems?, enterItems?, Resolved.eraseChoices, Schema.isArray_eraseChoices,
    Schema.items_eraseChoices, apply_ite (Option.map Resolved.eraseChoices), Option.map_map,
    Option.map_map]
  simp only [Function.comp_def, resolve_eraseChoices, Option.map_none]

theorem unwrapArrays_eraseChoices (steps : ℕ) :
    components.eraseChoices.unwrapArrays steps resolved.eraseChoices =
      (components.unwrapArrays steps resolved).map Resolved.eraseChoices := by
  induction steps generalizing resolved with
  | zero => rfl
  | succ steps ih =>
    rw [unwrapArrays_succ, unwrapArrays_succ, enterItems?_eraseChoices]
    cases components.enterItems? resolved with
    | none => rfl
    | some inner => exact ih inner

theorem objectFields_eraseChoices :
    components.eraseChoices.objectFields resolved.eraseChoices =
      components.objectFields resolved := by
  simp only [objectFields, Resolved.eraseChoices, Schema.isArray_eraseChoices,
    Schema.isObjectShaped_eraseChoices, Schema.properties_eraseChoices,
    Schema.required_eraseChoices, Entries.keys_mapValues, Entries.lookup_mapValues, Option.map_map,
    Function.comp_def, resolve_eraseChoices, Schema.ofProperty_eraseChoices]

theorem fieldsOf?_eraseChoices {schema schema' : Schema} (h : components.Within schema resolved)
    (h' : components.eraseChoices.Within schema' resolved.eraseChoices) :
    components.eraseChoices.fieldsOf? schema' resolved.eraseChoices =
      components.fieldsOf? schema resolved := by
  refine fieldsOf?_congr h' h fun steps => ?_
  rw [unwrapArrays_eraseChoices, Option.map_map]
  exact congrArg (Option.map · _) (funext components.objectFields_eraseChoices)

theorem fields?_eraseChoices (schema : Schema) :
    components.eraseChoices.fields? schema.eraseChoices = components.fields? schema := by
  have hwithin := components.eraseChoices.within_resolve schema.eraseChoices
  rw [resolve_eraseChoices] at hwithin
  rw [fields?, fields?, resolve_eraseChoices,
    fieldsOf?_eraseChoices _ _ (components.within_resolve schema) hwithin]

theorem namedFields?_eraseChoices (name : String) :
    components.eraseChoices.namedFields? name = components.namedFields? name := by
  have hwithin := components.eraseChoices.within_resolveNamed name
  rw [resolveNamed_eraseChoices] at hwithin
  simp only [namedFields?, resolveNamed_eraseChoices]
  exact fieldsOf?_eraseChoices _ _ (components.within_resolveNamed name) hwithin

end CrudUi.Components
