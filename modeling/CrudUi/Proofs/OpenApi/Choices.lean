import CrudUi.Inference.Fields
import CrudUi.Walk.Payload

/-!
# The branches of choices

A choice is a list of schemas under `oneOf` or `anyOf`.  `Schema.eraseChoices` leaves no trace of
what its branches say, at any depth, and keeps whether there are any.  Two schemas differ in nothing
but the contents of choices if this makes them the same, and whatever is read off a single schema is
then the same for both.

## Main definitions

* `Schema.eraseChoices` : a schema without the contents of its choices.
-/

namespace CrudUi

namespace Schema

/-- A choice without its contents. -/
def eraseBranches : List Schema → List Schema
  | [] => []
  | _ :: _ => [{}]

mutual

/-- A schema without the contents of its choices. -/
def eraseChoices : Schema → Schema
  | ⟨reference, type, format, enumValues, properties, required, items, allOf, oneOf, anyOf,
      readOnly, writeOnly⟩ =>
    ⟨reference, type, format, enumValues, eraseChoicesInProperties properties, required,
      eraseChoicesInOption items, eraseChoicesInList allOf, eraseBranches oneOf,
      eraseBranches anyOf, readOnly, writeOnly⟩

/-- Properties without the contents of their choices. -/
def eraseChoicesInProperties : List (String × Schema) → List (String × Schema)
  | [] => []
  | (name, schema) :: rest => (name, schema.eraseChoices) :: eraseChoicesInProperties rest

/-- An optional schema without the contents of its choices. -/
def eraseChoicesInOption : Option Schema → Option Schema
  | none => none
  | some schema => some schema.eraseChoices

/-- Schemas without the contents of their choices. -/
def eraseChoicesInList : List Schema → List Schema
  | [] => []
  | schema :: rest => schema.eraseChoices :: eraseChoicesInList rest

end

theorem eraseChoicesInProperties_eq (properties : Entries Schema) :
    eraseChoicesInProperties properties = properties.mapValues eraseChoices := by
  induction properties with
  | nil => rfl
  | cons entry rest ih =>
    rw [eraseChoicesInProperties, ih]
    rfl

theorem eraseChoicesInOption_eq (schema : Option Schema) :
    eraseChoicesInOption schema = schema.map eraseChoices := by
  cases schema <;> rfl

theorem eraseChoicesInList_eq (schemas : List Schema) :
    eraseChoicesInList schemas = schemas.map eraseChoices := by
  induction schemas with
  | nil => rfl
  | cons schema rest ih => rw [eraseChoicesInList, ih, List.map_cons]

theorem eraseChoices_eq (schema : Schema) :
    schema.eraseChoices =
      { schema with
        properties := Entries.mapValues eraseChoices schema.properties
        items := schema.items.map eraseChoices
        allOf := schema.allOf.map eraseChoices
        oneOf := eraseBranches schema.oneOf
        anyOf := eraseBranches schema.anyOf } := by
  cases schema
  rw [eraseChoices, eraseChoicesInProperties_eq, eraseChoicesInOption_eq, eraseChoicesInList_eq]

/-! ### Keywords -/

theorem isEmpty_eraseBranches (branches : List Schema) :
    (eraseBranches branches).isEmpty = branches.isEmpty := by
  cases branches <;> rfl

variable (schema : Schema)

theorem reference_eraseChoices : schema.eraseChoices.reference = schema.reference := by
  rw [eraseChoices_eq]

theorem properties_eraseChoices :
    schema.eraseChoices.properties = Entries.mapValues eraseChoices schema.properties := by
  rw [eraseChoices_eq]

theorem required_eraseChoices : schema.eraseChoices.required = schema.required := by
  rw [eraseChoices_eq]

theorem items_eraseChoices : schema.eraseChoices.items = schema.items.map eraseChoices := by
  rw [eraseChoices_eq]

theorem allOf_eraseChoices : schema.eraseChoices.allOf = schema.allOf.map eraseChoices := by
  rw [eraseChoices_eq]

/-! ### What is read off a schema -/

theorem typeName?_eraseChoices : schema.eraseChoices.typeName? = schema.typeName? := by
  rw [eraseChoices_eq, typeName?, typeName?]

theorem isArray_eraseChoices : schema.eraseChoices.isArray = schema.isArray := by
  rw [isArray, isArray, typeName?_eraseChoices, items_eraseChoices, Option.isSome_map,
    eraseChoices_eq]

theorem isObjectShaped_eraseChoices :
    schema.eraseChoices.isObjectShaped = schema.isObjectShaped := by
  rw [isObjectShaped, isObjectShaped, typeName?_eraseChoices, properties_eraseChoices]
  cases schema.properties <;> rfl

theorem isPolymorphic_eraseChoices : schema.eraseChoices.isPolymorphic = schema.isPolymorphic := by
  rw [eraseChoices_eq, isPolymorphic, isPolymorphic, isEmpty_eraseBranches, isEmpty_eraseBranches]

theorem unwrapArray_eraseChoices :
    schema.eraseChoices.unwrapArray = schema.unwrapArray.eraseChoices := by
  rw [unwrapArray, unwrapArray, items_eraseChoices, isArray_eraseChoices]
  cases schema.items with
  | none => rfl
  | some items => exact (apply_ite eraseChoices _ _ _).symm

theorem referencedName?_eraseChoices :
    schema.eraseChoices.referencedName? = schema.referencedName? := by
  rw [referencedName?, referencedName?, unwrapArray_eraseChoices, reference_eraseChoices]

theorem typeOf?_eraseChoices (rule : TypingRule) :
    rule.typeOf? schema.eraseChoices = rule.typeOf? schema := by
  cases rule with
  | polymorphic => rw [TypingRule.typeOf?, TypingRule.typeOf?, isPolymorphic_eraseChoices]
  | declared => rw [TypingRule.typeOf?, TypingRule.typeOf?, typeName?_eraseChoices]
  | objectShaped => rw [TypingRule.typeOf?, TypingRule.typeOf?, isObjectShaped_eraseChoices]

theorem fieldType_eraseChoices : schema.eraseChoices.fieldType = schema.fieldType := by
  simp only [fieldType, typeOf?_eraseChoices]

theorem ofProperty_eraseChoices (name : String) (required : Bool) :
    Field.ofProperty name schema.eraseChoices required = Field.ofProperty name schema required := by
  rw [Field.ofProperty, fieldType_eraseChoices, eraseChoices_eq]
  rfl

end Schema

end CrudUi
