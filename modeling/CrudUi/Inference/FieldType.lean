import CrudUi.OpenApi.Schema
import CrudUi.Ui.Field

/-!
# The kind of value of a resolved schema

Three rules are tried in order: a choice between schemas is unknown, a declared scalar or list is
what it says, and anything with the shape of an object is one.
-/

namespace CrudUi

/-- A rule that may name the kind of value of a schema. -/
inductive TypingRule where
  | polymorphic
  | declared
  | objectShaped
  deriving DecidableEq, Repr

namespace TypingRule

/-- Every rule, in the order in which they are tried. -/
def all : List TypingRule :=
  [.polymorphic, .declared, .objectShaped]

/-- The name of a rule. -/
def name : TypingRule → String
  | .polymorphic => "polymorphic"
  | .declared => "declared"
  | .objectShaped => "object-shaped"

/-- What a rule says about a schema. -/
def typeOf? (rule : TypingRule) (schema : Schema) : Option FieldType :=
  match rule with
  | .polymorphic => if schema.isPolymorphic then some .unknown else none
  | .declared => schema.typeName?.bind FieldType.ofKeyword?
  | .objectShaped => if schema.isObjectShaped then some .object else none

end TypingRule

/-- The kind of value of a resolved schema: what the first rule that applies says. -/
def Schema.fieldType (schema : Schema) : FieldType :=
  (TypingRule.all.findSome? (·.typeOf? schema)).getD .unknown

end CrudUi
