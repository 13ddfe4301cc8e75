import CrudUi.OpenApi.Schema.Keywords

/-!
# Written schemas are read back

Every schema can be read from what is written for it, whatever keywords are set at whatever depth:
a keyword that is not set is not written, and one that is written has the shape that is read.  So
what reading makes of any value is kept by writing it and reading it again
(`Schema.ofJson_toJson_ofJson`).
-/

namespace CrudUi.Schema

mutual

theorem ofJson_toJson : (schema : Schema) → ofJson schema.toJson = schema
  | ⟨_, _, _, _, properties, _, items, allOf, oneOf, anyOf, _, _⟩ => by
    rw [ofJson_toJson_eq, ofProperties_propertiesToJson properties, map_ofJson_optionToJson items,
      ofList_listToJson allOf, ofList_listToJson oneOf, ofList_listToJson anyOf]

theorem ofProperties_propertiesToJson :
    (properties : List (String × Schema)) → ofProperties (propertiesToJson properties) = properties
  | [] => rfl
  | (name, schema) :: rest => by
    rw [propertiesToJson, ofProperties, ofJson_toJson schema, ofProperties_propertiesToJson rest]

theorem map_ofJson_optionToJson :
    (schema : Option Schema) → (optionToJson schema).map ofJson = schema
  | none => rfl
  | some schema => congrArg some (ofJson_toJson schema)

theorem ofList_listToJson : (schemas : List Schema) → ofList (listToJson schemas) = schemas
  | [] => rfl
  | schema :: rest => by
    rw [listToJson, ofList, ofJson_toJson schema, ofList_listToJson rest]

end

/-- Reading undoes writing, so reading a value, writing the schema and reading that again changes
nothing. -/
theorem ofJson_toJson_ofJson (schema : Schema) (value : Json) :
    ofJson schema.toJson = schema ∧ ofJson (ofJson value).toJson = ofJson value :=
  ⟨ofJson_toJson schema, ofJson_toJson (ofJson value)⟩

end CrudUi.Schema
