import CrudUi.OpenApi.Schema

/-!
# The keywords of a schema

A schema is read from a JSON value keyword by keyword.  A keyword of the wrong shape counts as
absent, and a value that is no object is the empty schema, so every value can be read.
`Schema.toJson` writes the keywords that are set.
-/

namespace CrudUi

/-- Reads the `type` keyword: a string, or a list of strings and nulls. -/
def SchemaType.ofJson? : Json → Option SchemaType
  | .string name => some (.single name)
  | .array items => .multiple <$> items.mapM fun item => match item with
    | .string name => some (some name)
    | .null => some none
    | _ => none
  | _ => none

/-- Writes the `type` keyword. -/
def SchemaType.toJson : SchemaType → Json
  | .single name => .string name
  | .multiple names => .array (names.map fun name => match name with
    | some name => .string name
    | none => .null)

theorem SchemaType.ofJson?_toJson (type : SchemaType) : ofJson? type.toJson = some type := by
  cases type with
  | single name => rfl
  | multiple names =>
    suffices h : (names.map fun name => match name with
        | some name => Json.string name
        | none => .null).mapM (m := Option) (fun item => match item with
        | .string name => some (some name)
        | .null => some none
        | _ => none) = some names by
      rw [toJson, ofJson?, h]
      rfl
    induction names with
    | nil => rfl
    | cons name rest ih => cases name <;> simp [ih]

namespace Schema

/-- A list of strings. -/
private def strings? : Json → Option (List String)
  | .array items => items.mapM Json.string?
  | _ => none

/-- A truth value. -/
private def bool? : Json → Option Bool
  | .bool value => some value
  | _ => none

/-- A list of any values. -/
private def values? : Json → Option (List Json)
  | .array items => some items
  | _ => none

mutual

/-- Reads a schema. -/
def ofJson : Json → Schema
  | .object entries => ofKeywords entries
  | .null | .bool _ | .number _ | .string _ | .array _ => {}

/-- Reads a schema from its keywords. -/
def ofKeywords : List (String × Json) → Schema
  | [] => {}
  | (keyword, value) :: rest =>
    let schema := ofKeywords rest
    match keyword with
    | "$ref" => { schema with reference := value.string? }
    | "type" => { schema with type := SchemaType.ofJson? value }
    | "format" => { schema with format := value.string? }
    | "enum" => { schema with enumValues := values? value }
    | "properties" => { schema with properties := ofMembers value }
    | "required" => { schema with required := (strings? value).getD [] }
    | "items" => { schema with items := some (ofJson value) }
    | "allOf" => { schema with allOf := ofItems value }
    | "oneOf" => { schema with oneOf := ofItems value }
    | "anyOf" => { schema with anyOf := ofItems value }
    | "readOnly" => { schema with readOnly := bool? value }
    | "writeOnly" => { schema with writeOnly := bool? value }
    | _ => schema

/-- Reads the properties of a schema. -/
def ofMembers : Json → List (String × Schema)
  | .object entries => ofProperties entries
  | .null | .bool _ | .number _ | .string _ | .array _ => []

/-- Reads a list of properties. -/
def ofProperties : List (String × Json) → List (String × Schema)
  | [] => []
  | (name, value) :: rest => (name, ofJson value) :: ofProperties rest

/-- Reads the branches of a composition. -/
def ofItems : Json → List Schema
  | .array items => ofList items
  | .null | .bool _ | .number _ | .string _ | .object _ => []

/-- Reads a list of schemas. -/
def ofList : List Json → List Schema
  | [] => []
  | value :: rest => ofJson value :: ofList rest

end

/-- A keyword is looked up by its name, wherever it stands. -/
theorem ofKeywords_eq (entries : List (String × Json)) :
    ofKeywords entries =
      { reference := (Entries.lookup "$ref" entries).bind Json.string?
        type := (Entries.lookup "type" entries).bind SchemaType.ofJson?
        format := (Entries.lookup "format" entries).bind Json.string?
        enumValues := (Entries.lookup "enum" entries).bind values?
        properties := ((Entries.lookup "properties" entries).map ofMembers).getD []
        required := ((Entries.lookup "required" entries).bind strings?).getD []
        items := (Entries.lookup "items" entries).map ofJson
        allOf := ((Entries.lookup "allOf" entries).map ofItems).getD []
        oneOf := ((Entries.lookup "oneOf" entries).map ofItems).getD []
        anyOf := ((Entries.lookup "anyOf" entries).map ofItems).getD []
        readOnly := (Entries.lookup "readOnly" entries).bind bool?
        writeOnly := (Entries.lookup "writeOnly" entries).bind bool? } := by
  induction entries with
  | nil => rfl
  | cons entry rest ih =>
    obtain ⟨keyword, value⟩ := entry
    unfold ofKeywords
    split <;> simp_all [Entries.lookup]

/-- A keyword, if it is set. -/
private def keyword (name : String) (value : Option Json) : List (String × Json) :=
  match value with
  | some value => [(name, value)]
  | none => []

/-- A list of values as a keyword; an empty list is left out. -/
private def listKeyword (name : String) (values : List Json) : List (String × Json) :=
  if values.isEmpty then [] else [(name, .array values)]

/-- Properties as a keyword; an empty table is left out. -/
private def tableKeyword (name : String) (entries : List (String × Json)) : List (String × Json) :=
  if entries.isEmpty then [] else [(name, .object entries)]

mutual

/-- Writes the keywords that are set. -/
def toJson : Schema → Json
  | ⟨reference, type, format, enumValues, properties, required, items, allOf, oneOf, anyOf,
      readOnly, writeOnly⟩ =>
    .object (keyword "$ref" (reference.map .string) ++
      keyword "type" (type.map SchemaType.toJson) ++
      keyword "format" (format.map .string) ++ keyword "enum" (enumValues.map .array) ++
      tableKeyword "properties" (propertiesToJson properties) ++
      listKeyword "required" (required.map .string) ++ keyword "items" (optionToJson items) ++
      listKeyword "allOf" (listToJson allOf) ++ listKeyword "oneOf" (listToJson oneOf) ++
      listKeyword "anyOf" (listToJson anyOf) ++ keyword "readOnly" (readOnly.map .bool) ++
      keyword "writeOnly" (writeOnly.map .bool))

/-- Writes properties. -/
def propertiesToJson : List (String × Schema) → List (String × Json)
  | [] => []
  | (name, schema) :: rest => (name, schema.toJson) :: propertiesToJson rest

/-- Writes an optional schema. -/
def optionToJson : Option Schema → Option Json
  | none => none
  | some schema => some schema.toJson

/-- Writes a list of schemas. -/
def listToJson : List Schema → List Json
  | [] => []
  | schema :: rest => schema.toJson :: listToJson rest

end

/-! ### Written keywords -/

private theorem lookup_keyword (name key : String) (value : Option Json) :
    Entries.lookup key (keyword name value) = if name = key then value else none := by
  cases value <;> simp [keyword, Entries.lookup]

private theorem listKeyword_eq (name : String) (values : List Json) :
    listKeyword name values =
      keyword name (if values.isEmpty then none else some (.array values)) := by
  cases values <;> rfl

private theorem tableKeyword_eq (name : String) (entries : List (String × Json)) :
    tableKeyword name entries =
      keyword name (if entries.isEmpty then none else some (.object entries)) := by
  cases entries <;> rfl

private theorem bind_map_eq {α β : Type} {write : α → β} {read : β → Option α}
    (h : ∀ a, read (write a) = some a) (value : Option α) :
    (value.map write).bind read = value := by
  cases value <;> simp [h]

private theorem getD_ofItems (values : List Json) :
    ((if values.isEmpty then none else some (Json.array values)).map ofItems).getD [] =
      ofList values := by
  cases values <;> rfl

private theorem getD_ofMembers (entries : List (String × Json)) :
    ((if entries.isEmpty then none else some (Json.object entries)).map ofMembers).getD [] =
      ofProperties entries := by
  cases entries <;> rfl

private theorem getD_strings? (texts : List String) :
    ((if (texts.map Json.string).isEmpty then none
      else some (Json.array (texts.map .string))).bind strings?).getD [] = texts := by
  have h : (texts.map Json.string).mapM Json.string? = some texts := by
    induction texts with
    | nil => rfl
    | cons text rest ih => simp [ih, Json.string?]
  cases texts with
  | nil => rfl
  | cons text rest => simpa [strings?] using congrArg (·.getD []) h

/-- What is written under the keywords of a schema is read back, up to the schemas inside. -/
theorem ofJson_toJson_eq (schema : Schema) :
    ofJson schema.toJson =
      { schema with
        properties := ofProperties (propertiesToJson schema.properties)
        items := (optionToJson schema.items).map ofJson
        allOf := ofList (listToJson schema.allOf)
        oneOf := ofList (listToJson schema.oneOf)
        anyOf := ofList (listToJson schema.anyOf) } := by
  cases schema
  simp only [toJson, ofJson, ofKeywords_eq, listKeyword_eq, tableKeyword_eq, Entries.lookup_append,
    lookup_keyword, String.reduceEq, reduceIte, Option.none_or, Option.or_none, mk.injEq]
  have hstring : ∀ text : Option String, (text.map Json.string).bind Json.string? = text :=
    bind_map_eq fun _ => rfl
  have hvalues : ∀ values : Option (List Json), (values.map Json.array).bind values? = values :=
    bind_map_eq fun _ => rfl
  have hbool : ∀ flag : Option Bool, (flag.map Json.bool).bind bool? = flag :=
    bind_map_eq fun _ => rfl
  exact ⟨hstring _, bind_map_eq SchemaType.ofJson?_toJson _, hstring _, hvalues _,
    getD_ofMembers _, getD_strings? _, trivial, getD_ofItems _, getD_ofItems _, getD_ofItems _,
    hbool _, hbool _⟩

end Schema

end CrudUi
