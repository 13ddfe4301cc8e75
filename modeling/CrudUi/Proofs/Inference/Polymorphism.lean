import CrudUi.Proofs.Inference.FieldNames
import CrudUi.Proofs.Inference.Unwrapping
import CrudUi.Proofs.Resolution.Folding

/-!
# Fields beside a choice

A schema with `oneOf` or `anyOf` is of an unknown kind, whatever else it says, and no branch of the
choice becomes a field.  But the properties beside the choice do: going into a schema asks whether
it is a list or an object, and never whether it is a choice.  So a schema that ends in a choice has
no fields exactly if it ends in a list or has no properties there
(`Components.fields?_of_isPolymorphic`).

## Main definitions

* `Components.EndsIn` : the schema that is left when there are no more items to go into.
-/

namespace CrudUi

theorem Schema.fieldType_of_isPolymorphic {schema : Schema} (h : schema.isPolymorphic = true) :
    schema.fieldType = .unknown := by
  simp [fieldType, TypingRule.all, TypingRule.typeOf?, h]

theorem Schema.properties_eq_nil_of_isObjectShaped_eq_false {schema : Schema}
    (h : schema.isObjectShaped = false) : schema.properties = [] := by
  rw [isObjectShaped, Bool.or_eq_false_iff] at h
  simpa using h.2

namespace Components

variable {components : Components} {schema : Schema} {final : Resolved}

/-- Resolved and freed of lists, a schema is this one: there are no items left to go into. -/
def EndsIn (components : Components) (schema : Schema) (final : Resolved) : Prop :=
  Relation.ReflTransGen components.Enters (components.resolve schema []) final ∧
    components.enterItems? final = none

theorem fields?_eq_some_iff {fields : List Field} :
    components.fields? schema = some fields ↔
      ∃ final, components.EndsIn schema final ∧ components.objectFields final = fields := by
  rw [fields?, fieldsOf?, Option.map_eq_some_iff]
  simp only [unwrapArrays_eq_some_iff (within_resolve components schema), EndsIn]

/-- The fields are named for the properties, unless these stand beside the items of a list. -/
theorem mem_names_objectFields_iff {name : String} :
    name ∈ (components.objectFields final).map Field.name ↔
      final.schema.isArray = false ∧ name ∈ Entries.keys final.schema.properties := by
  rw [names_objectFields]
  cases harray : final.schema.isArray with
  | true => simp
  | false =>
    cases hshape : final.schema.isObjectShaped with
    | true => simp [Ascending.mem_ofList]
    | false => simp [Schema.properties_eq_nil_of_isObjectShaped_eq_false hshape, Entries.keys]

theorem objectFields_eq_nil_iff :
    components.objectFields final = [] ↔
      final.schema.isArray = true ∨ final.schema.properties = [] := by
  rw [← List.map_eq_nil_iff (f := Field.name), List.eq_nil_iff_forall_not_mem]
  simp only [mem_names_objectFields_iff]
  cases final.schema.isArray with
  | true => simp
  | false => simp [List.eq_nil_iff_forall_not_mem, Entries.keys]

/-- A schema that ends in a choice ends in an unknown kind.  It has a field for each property that
stands beside the choice there, and for nothing else, so none exactly if it ends in a list or has no
properties. -/
theorem fields?_of_isPolymorphic (hends : components.EndsIn schema final)
    (hchoice : final.schema.isPolymorphic = true) :
    final.schema.fieldType = .unknown ∧
      ∃ fields, components.fields? schema = some fields ∧
        (∀ name, name ∈ fields.map Field.name ↔
          final.schema.isArray = false ∧ name ∈ Entries.keys final.schema.properties) ∧
        (fields = [] ↔ final.schema.isArray = true ∨ final.schema.properties = []) :=
  ⟨Schema.fieldType_of_isPolymorphic hchoice, components.objectFields final,
    fields?_eq_some_iff.mpr ⟨final, hends, rfl⟩, fun _ => mem_names_objectFields_iff,
    objectFields_eq_nil_iff⟩

/-! ### Shapes -/

/-- A shape is an object, one of several. -/
def shapeSchema (properties : Entries Schema) : Schema where
  allOf := [{ oneOf := [{ properties := [("radius", {})] }, {}] },
    { type := some (.single "object"), properties := properties }]

/-- A list of shapes. -/
def shapeList : Schema where
  items := some (.ofReference "#/components/schemas/Shape")

/-- Components among which shapes are found. -/
def shapeComponents (properties : Entries Schema) : Components where
  schemas := [("Shape", shapeSchema properties)]

/-- What a list of shapes ends in. -/
def shapeInList (properties : Entries Schema) : Resolved where
  schema :=
    { type := some (.single "object"), properties := Entries.merge [] properties,
      oneOf := [{ properties := [("radius", {})] }, {}] }
  chain := ["Shape"]

theorem endsIn_shapeList (properties : Entries Schema) :
    (shapeComponents properties).EndsIn shapeList (shapeInList properties) := by
  have hfollow : (shapeComponents properties).follow? [] "#/components/schemas/Shape" =
      some ("Shape", shapeSchema properties) :=
    follow?_of_lookup (by decide +kernel) List.not_mem_nil rfl
  have hitems : (shapeComponents properties).resolve (.ofReference "#/components/schemas/Shape")
      [] = shapeInList properties := by
    rw [resolve_of_follow?_eq_some rfl hfollow,
      resolve_of_allOf_ne_nil rfl (List.cons_ne_nil _ _), shapeSchema, List.map_cons,
      resolve_of_allOf_eq_nil rfl rfl, List.map_singleton, resolve_of_allOf_eq_nil rfl rfl]
    rfl
  refine ⟨.single (enters_iff.mpr ?_), rfl⟩
  rw [resolve_of_allOf_eq_nil rfl rfl]
  exact ⟨rfl, _, rfl, hitems.symm⟩

/-- Shapes without properties have no fields. -/
theorem fields?_of_isPolymorphic_shapeList :
    (shapeComponents []).EndsIn shapeList (shapeInList []) ∧
      (shapeInList []).schema.isPolymorphic = true ∧
      (shapeInList []).schema.fieldType = .unknown ∧
      (shapeComponents []).fields? shapeList = some [] := by
  have hends := endsIn_shapeList []
  obtain ⟨htype, fields, hfields, -, hnone⟩ := fields?_of_isPolymorphic hends rfl
  exact ⟨hends, rfl, htype, hnone.mpr (.inr rfl) ▸ hfields⟩

/-- A color beside the choice between shapes is a field, though the shape is of an unknown kind. -/
theorem fields?_coloredShape :
    (shapeComponents [("color", {})]).EndsIn shapeList (shapeInList [("color", {})]) ∧
      (shapeInList [("color", {})]).schema.isPolymorphic = true ∧
      (shapeInList [("color", {})]).schema.fieldType = .unknown ∧
      ((shapeComponents [("color", {})]).fields? shapeList).map (·.map Field.name) =
        some ["color"] := by
  have hends := endsIn_shapeList [("color", {})]
  refine ⟨hends, rfl, rfl, ?_⟩
  rw [fields?_eq_some_iff.mpr ⟨_, hends, rfl⟩, Option.map_some, names_objectFields]
  decide

end Components

end CrudUi
