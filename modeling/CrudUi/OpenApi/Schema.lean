import CrudUi.Json

/-!
# Schemas

The part of a schema object that matters for a user interface.  A keyword that is absent and one
of the wrong shape are the same thing here, so there are no ill-formed schemas.
-/

namespace CrudUi

/-- The `type` keyword: one name, or a list of names in which a null may stand. -/
inductive SchemaType where
  | single (name : String)
  | multiple (names : List (Option String))
  deriving DecidableEq, Repr

/-- The effective name: the single one, or the first of a list that is not null. -/
def SchemaType.primary? : SchemaType → Option String
  | .single name => some name
  | .multiple names => (names.filterMap id).find? (· ≠ "null")

/-- A schema object. -/
structure Schema where
  reference : Option String := none
  type : Option SchemaType := none
  format : Option String := none
  enumValues : Option (List Json) := none
  properties : List (String × Schema) := []
  required : List String := []
  items : Option Schema := none
  allOf : List Schema := []
  oneOf : List Schema := []
  anyOf : List Schema := []
  readOnly : Option Bool := none
  writeOnly : Option Bool := none
  deriving Repr, Inhabited

namespace Schema

mutual

/-- Equality of schemas is decidable. -/
protected def decEq : (a b : Schema) → Decidable (a = b)
  | ⟨reference, type, format, enumValues, properties, required, items, allOf, oneOf, anyOf,
      readOnly, writeOnly⟩,
    ⟨reference', type', format', enumValues', properties', required', items', allOf', oneOf',
      anyOf', readOnly', writeOnly'⟩ =>
    have := Schema.decEqProperties properties properties'
    have := Schema.decEqOption items items'
    have := Schema.decEqList allOf allOf'
    have := Schema.decEqList oneOf oneOf'
    have := Schema.decEqList anyOf anyOf'
    decidable_of_iff (reference = reference' ∧ type = type' ∧ format = format' ∧
      enumValues = enumValues' ∧ properties = properties' ∧ required = required' ∧
      items = items' ∧ allOf = allOf' ∧ oneOf = oneOf' ∧ anyOf = anyOf' ∧
      readOnly = readOnly' ∧ writeOnly = writeOnly') (by simp)

/-- Equality of lists of properties is decidable. -/
protected def decEqProperties : (as bs : List (String × Schema)) → Decidable (as = bs)
  | [], [] => isTrue rfl
  | [], _ :: _ => isFalse nofun
  | _ :: _, [] => isFalse nofun
  | (k, a) :: as, (l, b) :: bs =>
    have := Schema.decEq a b
    have := Schema.decEqProperties as bs
    decidable_of_iff ((k = l ∧ a = b) ∧ as = bs) (by simp)

/-- Equality of optional schemas is decidable. -/
protected def decEqOption : (a b : Option Schema) → Decidable (a = b)
  | none, none => isTrue rfl
  | none, some _ => isFalse nofun
  | some _, none => isFalse nofun
  | some a, some b =>
    have := Schema.decEq a b
    decidable_of_iff (a = b) (by simp)

/-- Equality of lists of schemas is decidable. -/
protected def decEqList : (as bs : List Schema) → Decidable (as = bs)
  | [], [] => isTrue rfl
  | [], _ :: _ => isFalse nofun
  | _ :: _, [] => isFalse nofun
  | a :: as, b :: bs =>
    have := Schema.decEq a b
    have := Schema.decEqList as bs
    decidable_of_iff (a = b ∧ as = bs) (by simp)

end

instance : DecidableEq Schema := Schema.decEq

/-- A bare reference. -/
def ofReference (target : String) : Schema :=
  { reference := some target }

/-- The effective name of the declared type. -/
def typeName? (schema : Schema) : Option String :=
  schema.type.bind SchemaType.primary?

/-- A list: of the type `array`, or with `items` and no type. -/
def isArray (schema : Schema) : Bool :=
  schema.typeName? = some "array" || (schema.type.isNone && schema.items.isSome)

/-- An object: of the type `object`, or with properties. -/
def isObjectShaped (schema : Schema) : Bool :=
  schema.typeName? = some "object" || !schema.properties.isEmpty

/-- A choice between several schemas. -/
def isPolymorphic (schema : Schema) : Bool :=
  !schema.oneOf.isEmpty || !schema.anyOf.isEmpty

/-- The schema of the items of a list, and any other schema itself. -/
def unwrapArray (schema : Schema) : Schema :=
  match schema.items with
  | some items => if schema.isArray then items else schema
  | none => schema

mutual

/-- The number of schemas in a schema, itself included. -/
def size : Schema → Nat
  | ⟨_, _, _, _, properties, _, items, allOf, oneOf, anyOf, _, _⟩ =>
    1 + sizeOfProperties properties + sizeOfOption items + sizeOfList allOf + sizeOfList oneOf +
      sizeOfList anyOf

/-- The number of schemas in a list of properties. -/
def sizeOfProperties : List (String × Schema) → Nat
  | [] => 0
  | (_, schema) :: rest => schema.size + sizeOfProperties rest

/-- The number of schemas in an optional schema. -/
def sizeOfOption : Option Schema → Nat
  | none => 0
  | some schema => schema.size

/-- The number of schemas in a list. -/
def sizeOfList : List Schema → Nat
  | [] => 0
  | schema :: rest => schema.size + sizeOfList rest

end

end Schema

end CrudUi
