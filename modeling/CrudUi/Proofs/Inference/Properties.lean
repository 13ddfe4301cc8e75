import CrudUi.Proofs.Ascending.Members
import CrudUi.Proofs.Inference.Unwrapping

/-!
# Fields as properties

A field stands for a property of the object that is left when there are no more items to go into:
it bears the name of the property, and says what the resolved property says
(`Components.mem_objectFields_iff`).  The allowed values of a field are the texts of those of the
property, in ascending order (`Field.IsChoice`).
-/

namespace CrudUi

/-! ### Allowed values -/

/-- The text of an allowed value: a string as it is, any other value as compact JSON. -/
def Json.choiceText : Json → String
  | .string text => text
  | other => other.compact

theorem enumTexts_eq (values : List Json) :
    enumTexts values = Ascending.ofList (values.map Json.choiceText) :=
  rfl

/-- The texts are those of the values, ascending and each once. -/
def Field.IsChoice (values : List Json) (texts : List String) : Prop :=
  texts.Pairwise (· < ·) ∧ ∀ text, text ∈ texts ↔ ∃ value ∈ values, value.choiceText = text

theorem Field.isChoice_enumTexts (values : List Json) : IsChoice values (enumTexts values) := by
  rw [enumTexts_eq]
  exact ⟨Ascending.pairwise_ofList _, fun text => by rw [Ascending.mem_ofList, List.mem_map]⟩

theorem Field.rel_isChoice_map_enumTexts (values : Option (List Json)) :
    Option.Rel IsChoice values (values.map enumTexts) := by
  cases values with
  | none => exact .none
  | some values => exact .some (isChoice_enumTexts values)

/-! ### Properties -/

/-- There is nothing to resolve in a schema: it has neither a reference nor an `allOf`. -/
def Schema.IsPlain (schema : Schema) : Prop :=
  schema.reference = none ∧ schema.allOf = []

instance (schema : Schema) : Decidable schema.IsPlain :=
  inferInstanceAs (Decidable (_ ∧ _))

namespace Components

variable {components : Components}

/-- An object that is no list has one field for each property, which says what the resolved
property says. -/
theorem mem_objectFields_iff {object : Resolved} {field : Field} :
    field ∈ components.objectFields object ↔
      (object.schema.isArray = false ∧ object.schema.isObjectShaped = true) ∧
        ∃ property, Entries.lookup field.name object.schema.properties = some property ∧
          field = Field.ofProperty field.name (components.resolve property object.chain).schema
            (object.schema.required.contains field.name) := by
  rw [objectFields]
  by_cases hobject : object.schema.isArray || !object.schema.isObjectShaped
  · rw [if_pos hobject]
    simp only [List.not_mem_nil, false_iff, not_and]
    intro hshape
    simp [hshape] at hobject
  · rw [if_neg hobject, and_iff_right (by simpa using hobject)]
    simp only [List.mem_filterMap, Ascending.mem_ofList, Option.map_eq_some_iff]
    constructor
    · rintro ⟨name, -, property, hproperty, rfl⟩
      exact ⟨property, hproperty, rfl⟩
    · rintro ⟨property, hproperty, hfield⟩
      exact ⟨field.name, Entries.mem_keys_of_lookup hproperty, property, hproperty, hfield.symm⟩

/-- Plain properties are what their fields say. -/
theorem objectFields_of_forall_isPlain {object : Resolved}
    (h : ∀ entry ∈ object.schema.properties, entry.2.IsPlain) :
    components.objectFields object =
      if object.schema.isArray || !object.schema.isObjectShaped then []
      else (Ascending.ofList (Entries.keys object.schema.properties)).filterMap fun name =>
        (Entries.lookup name object.schema.properties).map fun property =>
          Field.ofProperty name property (object.schema.required.contains name) := by
  rw [objectFields]
  split
  · rfl
  · refine List.filterMap_congr fun name _ => Option.map_congr fun property hproperty => ?_
    obtain ⟨href, hallOf⟩ := h _ (Entries.mem_of_lookup hproperty)
    rw [resolve_of_allOf_eq_nil href hallOf]

/-- A component that is an object in place has its own properties as fields. -/
theorem namedFields?_of_isPlain {name : String} {definition : Schema}
    (hlookup : components.schemas.lookup name = some definition) (hplain : definition.IsPlain)
    (harray : definition.isArray = false) :
    components.namedFields? name = some (components.objectFields ⟨definition, [name]⟩) := by
  obtain ⟨href, hallOf⟩ := hplain
  have hresolved : components.resolveNamed name = ⟨definition, [name]⟩ := by
    rw [resolveNamed, hlookup]
    exact resolve_of_allOf_eq_nil href hallOf
  rw [namedFields?, hresolved]
  exact fieldsOf?_of_isArray_eq_false harray

end Components

end CrudUi
