import CrudUi.Inference.FieldType
import CrudUi.Naming
import CrudUi.OpenApi.Resolution

/-!
# The fields of a schema

A schema is resolved and, while it is a list, replaced by the schema of its items.  If an object
is left, its properties are resolved and become the fields, in ascending order of their names.

The items of a list may lead back to the list without the chain of references taking notice, when
the reference stands inside `allOf`.  Going into the items then has no end, and there are no
fields, not even an empty list of them.  Since the items met on the way are among the schemas of
the document, and the chain only grows, a number of steps is known after which this is certain
(`Components.unwrapBound`).
-/

namespace CrudUi

/-- The texts of the allowed values: strings as they are, other values as compact JSON; ascending,
each once. -/
def enumTexts (values : List Json) : List String :=
  Ascending.ofList (values.map fun value => match value with
    | .string text => text
    | other => other.compact)

/-- The field for a resolved property. -/
def Field.ofProperty (name : String) (property : Schema) (required : Bool) : Field where
  name := name
  label := Naming.humanize name
  type := property.fieldType
  format := property.format
  required := required
  readOnly := property.readOnly
  writeOnly := property.writeOnly
  enumValues := property.enumValues.map enumTexts

namespace Components

/-- Goes into the items of lists, in at most `steps` steps, until something else is reached. -/
def unwrapArrays (components : Components) : Nat → Resolved → Option Resolved
  | 0, _ => none
  | steps + 1, resolved =>
    match resolved.schema.items with
    | some items =>
      if resolved.schema.isArray then
        unwrapArrays components steps (components.resolve items resolved.chain)
      else some resolved
    | none => some resolved

/-- The number of steps after which going into the items of lists has no end: every schema of the
document with every length of the chain has then been met. -/
def unwrapBound (components : Components) (schema : Schema) : Nat :=
  (Schema.sizeOfProperties components.schemas + schema.size + 1) *
    (components.schemas.length + 1) + 1

/-- The fields of a schema that is resolved and no list. -/
def objectFields (components : Components) (resolved : Resolved) : List Field :=
  let schema := resolved.schema
  if schema.isArray || !schema.isObjectShaped then []
  else
    (Ascending.ofList (Entries.keys schema.properties)).filterMap fun name =>
      (Entries.lookup name schema.properties).map fun property =>
        Field.ofProperty name (components.resolve property resolved.chain).schema
          (schema.required.contains name)

/-- The fields of a resolved schema, where `schema` is what was resolved. -/
def fieldsOf? (components : Components) (schema : Schema) (resolved : Resolved) :
    Option (List Field) :=
  (components.unwrapArrays (components.unwrapBound schema) resolved).map components.objectFields

/-- The fields of a schema; `none` if going into its items has no end. -/
def fields? (components : Components) (schema : Schema) : Option (List Field) :=
  components.fieldsOf? schema (components.resolve schema [])

/-- The fields of the component of a name; `none` if going into its items has no end. -/
def namedFields? (components : Components) (name : String) : Option (List Field) :=
  let resolved := components.resolveNamed name
  components.fieldsOf? resolved.schema resolved

end Components

end CrudUi
