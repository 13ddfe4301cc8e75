import CrudUi.OpenApi.Document.Reading
import CrudUi.Proofs.Decode.Records
import CrudUi.Proofs.Entries.Values

/-!
# What a reader of documents knows

Of the members of an object a reader of documents knows those that are fields or keywords of what it
reads; all others are passed over, at any depth, and so are the entries of the table of paths that
are extensions.  `Document.known` drops them all, and the reading of a document, with its errors, is
the same without them (`Document.ofJson_known`).

## Main definitions

* `Json.knownFields` : the fields of a record, each changed by a function.
* `Schema.known` : a value without what a reader of schemas does not know.
* `Document.known` : a value without what a reader of documents does not know.
-/

namespace CrudUi

/-! ### Records, tables and references -/

namespace Json

/-- Changes the fields of a record that is given as a list. -/
def knownItems (field : String → Json → Json) : List (String × Presence) → List Json → List Json
  | (name, _) :: fields, item :: items => field name item :: knownItems field fields items
  | [], items => items
  | _ :: _, [] => []

/-- Changes the fields of a record, and drops the members that are none of them. -/
def knownFields (shape : Shape) (field : String → Json → Json) : Json → Json
  | .object members =>
    .object ((members.filter (·.1 ∈ shape.names)).map fun member =>
      (member.1, field member.1 member.2))
  | .array items => .array (knownItems field shape.fields items)
  | .null => .null
  | .bool value => .bool value
  | .number value => .number value
  | .string text => .string text

/-- Changes the members of an object. -/
def mapMembers (change : Entries Json → Entries Json) : Json → Json
  | .object members => .object (change members)
  | .array items => .array items
  | .null => .null
  | .bool value => .bool value
  | .number value => .number value
  | .string text => .string text

/-- Changes the values of a table. -/
def knownValues (known : Json → Json) : Json → Json :=
  mapMembers (Entries.mapValues known)

/-- The target of a reference: the string under `$ref` in an object. -/
def target? : Json → Option String
  | .object members => (Entries.lookup "$ref" members).bind Json.string?
  | .null | .bool _ | .number _ | .string _ | .array _ => none

section Fields

variable {α : Type} {shape : Shape} {field : String → Json → Json}
  {set : α → String → Json → Decoded α}

theorem length_knownItems (fields : List (String × Presence)) (items : List Json) :
    (knownItems field fields items).length = items.length := by
  fun_induction knownItems field fields items with
  | case1 name presence fields item items ih => exact congrArg (· + 1) ih
  | case2 | case3 => rfl

theorem listedFields_knownItems (items : List Json) :
    listedFields shape (knownItems field shape.fields items) =
      (listedFields shape items).map fun member => (member.1, field member.1 member.2) := by
  rw [listedFields, listedFields, List.map_map]
  fun_induction knownItems field shape.fields items with
  | case1 name presence fields item items ih => exact congrArg _ ih
  | case2 | case3 => rfl

/-- Members that are no fields make no difference, and fields none that are stored alike. -/
theorem fillFields_known (hset : ∀ acc name value, name ∈ shape.names →
      set acc name (field name value) = set acc name value)
    (members : List (String × Json)) (acc : α) (seen : List String) :
    source.fillFields shape set (((members.filter (·.1 ∈ shape.names)).map fun member =>
        (member.1, field member.1 member.2)).map fun member => (.ok member.1, member.2)) acc seen =
      source.fillFields shape set (members.map fun member => (.ok member.1, member.2)) acc
        seen := by
  induction members generalizing acc seen with
  | nil => rfl
  | cons member rest ih =>
    obtain ⟨name, value⟩ := member
    by_cases hname : name ∈ shape.names
    · rw [List.filter_cons_of_pos (by simpa using hname), List.map_cons, List.map_cons,
        List.map_cons, Source.fillFields_cons_of_mem hname, Source.fillFields_cons_of_mem hname,
        hset acc name value hname]
      simp only [ih]
    · rw [List.filter_cons_of_neg (by simpa using hname), List.map_cons,
        Source.fillFields_cons_of_skip hname rfl, ih]

theorem readRecord_knownFields {blank : α} (hset : ∀ acc name value, name ∈ shape.names →
      set acc name (field name value) = set acc name value) (value : Json) :
    source.readRecord shape blank set (knownFields shape field value) =
      source.readRecord shape blank set value := by
  cases value with
  | null | bool | number | string => rfl
  | object members =>
    rw [knownFields, readRecord_object_eq, readRecord_object_eq, fillFields_known hset]
  | array items =>
    -- A list gives its items the names of the fields, so nothing in it is dropped.
    have hfields : (listedFields shape items).filter (·.1 ∈ shape.names) =
        listedFields shape items :=
      List.filter_eq_self.mpr fun _ hmem => decide_eq_true (mem_names_of_mem_listedFields hmem)
    have hfill := fillFields_known hset (listedFields shape items) blank []
    rw [hfields] at hfill
    rw [knownFields, readRecord_array_eq, readRecord_array_eq, length_knownItems,
      listedFields_knownItems, hfill]

theorem target?_knownFields (hfree : "$ref" ∉ shape.names) (value : Json) :
    (knownFields shape field value).target? = none := by
  cases value with
  | null | bool | number | string | array => rfl
  | object members =>
    have hnone : Entries.lookup "$ref" ((members.filter (·.1 ∈ shape.names)).map fun member =>
        (member.1, field member.1 member.2)) = none := by
      rw [Entries.lookup_eq_none_iff, Entries.keys, List.map_map]
      intro hmem
      obtain ⟨member, hmember, hname⟩ := List.mem_map.mp hmem
      exact hfree (hname ▸ of_decide_eq_true (List.mem_filter.mp hmember).2)
    rw [knownFields, target?, hnone]
    rfl

theorem isNull_knownFields (value : Json) :
    (knownFields shape field value).isNull = value.isNull := by
  cases value <;> rfl

end Fields

section Values

variable {α : Type} {read : Json → Decoded α} {known : Json → Json}

theorem readEntries_mapValues (hread : ∀ value, read (known value) = read value)
    (members : Entries Json) (old : Entries α) :
    Source.readEntries read
        ((members.mapValues known).map fun member => (.ok member.1, member.2)) old =
      Source.readEntries read (members.map fun member => (.ok member.1, member.2)) old := by
  induction members generalizing old with
  | nil => rfl
  | cons member rest ih =>
    have hstep (value : Json) (rest : Entries Json) : Source.readEntries read
        (((member.1, value) :: rest).map fun member => (.ok member.1, member.2)) old =
        read value >>= fun item => Source.readEntries read
          (rest.map fun member => (.ok member.1, member.2)) (old.insert member.1 item) := rfl
    have hmap : (Entries.mapValues known (member :: rest)) =
        (member.1, known member.2) :: Entries.mapValues known rest := rfl
    rw [hmap, hstep, hread]
    simp only [ih]
    exact (hstep member.2 rest).symm

theorem readTable_knownValues (hread : ∀ value, read (known value) = read value) (value : Json) :
    source.readTable read (knownValues known value) = source.readTable read value := by
  cases value with
  | null | bool | number | string | array => rfl
  | object members =>
    have htable (members : Entries Json) : source.readTable read (.object members) =
        Source.readEntries read (members.map fun member => (.ok member.1, member.2)) [] >>= pure :=
      rfl
    rw [knownValues, mapMembers, htable, htable, readEntries_mapValues hread]

theorem readOptional_known (hread : ∀ value, read (known value) = read value)
    (hnull : ∀ value : Json, (known value).isNull = value.isNull) (value : Json) :
    (known value).readOptional read = value.readOptional read := by
  have hoptional (value : Json) : value.readOptional read =
      if value.isNull then .ok none else some <$> read value := by
    cases value <;> rfl
  rw [hoptional, hoptional, hnull, hread]

end Values

end Json

/-- A definition in place without what is not known of it, and of a reference nothing but its
target. -/
def RefOr.known (known : Json → Json) (value : Json) : Json :=
  match value.target? with
  | some target => .object [("$ref", .string target)]
  | none => known value

theorem RefOr.isNull_known {known : Json → Json}
    (hnull : ∀ value : Json, (known value).isNull = value.isNull) (value : Json) :
    (RefOr.known known value).isNull = value.isNull := by
  cases value with
  | null | bool | number | string | array => exact hnull _
  | object members =>
    rw [RefOr.known]
    split
    · rfl
    · exact hnull _

theorem RefOr.ofJson_eq {α : Type} (read : Json → Decoded α) (value : Json) :
    RefOr.ofJson read value = match value.target? with
      | some target => .ok (.reference target)
      | none => match read value with
        | .ok value => .ok (.inline value)
        | .error _ => .error (.noVariant "RefOr") := by
  cases value with
  | null | bool | number | string | array => rfl
  | object members =>
    rw [RefOr.ofJson, Json.target?]
    cases Entries.lookup "$ref" members with
    | none => rfl
    | some target => cases target <;> rfl

theorem RefOr.ofJson_known {α : Type} {read : Json → Decoded α} {known : Json → Json}
    (hread : ∀ value, read (known value) = read value)
    (htarget : ∀ value, (known value).target? = none) (value : Json) :
    RefOr.ofJson read (RefOr.known known value) = RefOr.ofJson read value := by
  rw [RefOr.ofJson_eq read value, RefOr.known]
  split
  · rfl
  · rw [RefOr.ofJson_eq, htarget, hread]

/-! ### Schemas -/

namespace Schema

mutual

/-- A value without what a reader of schemas does not know. -/
def known : Json → Json
  | .object members => .object (knownKeywords members)
  | .array items => .array items
  | .null => .null
  | .bool value => .bool value
  | .number value => .number value
  | .string text => .string text

/-- Members that are keywords of schemas. -/
def knownKeywords : List (String × Json) → List (String × Json)
  | [] => []
  | (keyword, value) :: rest => match keyword with
    | "$ref" | "type" | "format" | "enum" | "required" | "readOnly" | "writeOnly" =>
      (keyword, value) :: knownKeywords rest
    | "properties" => (keyword, knownMembers value) :: knownKeywords rest
    | "items" => (keyword, known value) :: knownKeywords rest
    | "allOf" | "oneOf" | "anyOf" => (keyword, knownBranches value) :: knownKeywords rest
    | _ => knownKeywords rest

/-- The properties of a schema without what is not known of them. -/
def knownMembers : Json → Json
  | .object members => .object (knownProperties members)
  | .array items => .array items
  | .null => .null
  | .bool value => .bool value
  | .number value => .number value
  | .string text => .string text

/-- A list of properties without what is not known of them. -/
def knownProperties : List (String × Json) → List (String × Json)
  | [] => []
  | (name, value) :: rest => (name, known value) :: knownProperties rest

/-- The branches of a composition without what is not known of them. -/
def knownBranches : Json → Json
  | .array items => .array (knownList items)
  | .object members => .object members
  | .null => .null
  | .bool value => .bool value
  | .number value => .number value
  | .string text => .string text

/-- A list of schemas without what is not known of them. -/
def knownList : List Json → List Json
  | [] => []
  | value :: rest => known value :: knownList rest

end

/-- Reads a schema, which never fails. -/
def read (value : Json) : Decoded Schema :=
  .ok (ofJson value)

theorem isNull_known (value : Json) : (known value).isNull = value.isNull := by
  cases value with
  | object members =>
    rw [known]
    rfl
  | null | bool | number | string | array => rw [known]

mutual

theorem ofJson_known : (value : Json) → ofJson (known value) = ofJson value
  | .object members => by
    rw [known, ofJson, ofJson, ofKeywords_knownKeywords members]
  | .null | .bool _ | .number _ | .string _ | .array _ => by rw [known]

theorem ofKeywords_knownKeywords :
    (members : List (String × Json)) → ofKeywords (knownKeywords members) = ofKeywords members
  | [] => by rw [knownKeywords]
  | (keyword, value) :: rest => by
    have hrest := ofKeywords_knownKeywords rest
    have hvalue := ofJson_known value
    have hmembers := ofMembers_knownMembers value
    have hbranches := ofItems_knownBranches value
    unfold knownKeywords
    split <;> simp_all [ofKeywords]

theorem ofMembers_knownMembers : (value : Json) → ofMembers (knownMembers value) = ofMembers value
  | .object members => by
    rw [knownMembers, ofMembers, ofMembers, ofProperties_knownProperties members]
  | .null | .bool _ | .number _ | .string _ | .array _ => by rw [knownMembers]

theorem ofProperties_knownProperties :
    (members : List (String × Json)) → ofProperties (knownProperties members) = ofProperties members
  | [] => by rw [knownProperties]
  | (name, value) :: rest => by
    rw [knownProperties, ofProperties, ofProperties, ofJson_known value,
      ofProperties_knownProperties rest]

theorem ofItems_knownBranches : (value : Json) → ofItems (knownBranches value) = ofItems value
  | .array items => by rw [knownBranches, ofItems, ofItems, ofList_knownList items]
  | .null | .bool _ | .number _ | .string _ | .object _ => by rw [knownBranches]

theorem ofList_knownList : (items : List Json) → ofList (knownList items) = ofList items
  | [] => by rw [knownList]
  | value :: rest => by
    rw [knownList, ofList, ofList, ofJson_known value, ofList_knownList rest]

end

theorem read_known (value : Json) : read (known value) = read value :=
  congrArg Except.ok (ofJson_known value)

end Schema

/-! ### Payloads, requests and responses -/

/-- A payload without what is not known of it. -/
def MediaType.known : Json → Json :=
  Json.knownFields shape fun _ value => Schema.known value

/-- A request body without what is not known of it. -/
def RequestBody.known : Json → Json :=
  Json.knownFields shape fun _ value => Json.knownValues MediaType.known value

/-- A response without what is not known of it. -/
def Response.known : Json → Json :=
  Json.knownFields shape fun name value =>
    if name = "content" then Json.knownValues MediaType.known value else value

/-- The named definitions without what is not known of them. -/
def Components.known : Json → Json :=
  Json.knownFields shape fun name value => match name with
    | "schemas" => Json.knownValues Schema.known value
    | "responses" => Json.knownValues Response.known value
    | "requestBodies" => Json.knownValues RequestBody.known value
    | _ => value

theorem MediaType.read_known (value : Json) :
    MediaType.read Json.source (known value) = MediaType.read Json.source value := by
  refine Json.readRecord_knownFields (fun media name value hname => ?_) value
  obtain rfl : name = "schema" := List.mem_singleton.mp hname
  exact congrArg (· >>= fun schema => pure { media with schema })
    (Json.readOptional_known Schema.read_known Schema.isNull_known value)

theorem RequestBody.read_known (value : Json) :
    RequestBody.read Json.source (known value) = RequestBody.read Json.source value := by
  refine Json.readRecord_knownFields (fun body name value hname => ?_) value
  obtain rfl : name = "content" := List.mem_singleton.mp hname
  exact congrArg (· >>= fun content => pure { body with content })
    (Json.readTable_knownValues MediaType.read_known value)

theorem Response.read_known (value : Json) :
    Response.read Json.source (known value) = Response.read Json.source value := by
  refine Json.readRecord_knownFields (fun response name value hname => ?_) value
  obtain rfl | rfl : name = "description" ∨ name = "content" := by
    simpa [shape, Shape.names] using hname
  · rfl
  · exact congrArg (· >>= fun content => pure { response with content })
      (Json.readTable_knownValues MediaType.read_known value)

theorem Components.read_known (value : Json) :
    Components.read Json.source (known value) = Components.read Json.source value := by
  refine Json.readRecord_knownFields (fun components name value hname => ?_) value
  obtain rfl | rfl | rfl : name = "schemas" ∨ name = "responses" ∨ name = "requestBodies" := by
    simpa [shape, Shape.names] using hname
  · exact congrArg (· >>= fun schemas => pure { components with schemas })
      (Json.readTable_knownValues Schema.read_known value)
  · exact congrArg (· >>= fun responses => pure { components with responses })
      (Json.readTable_knownValues Response.read_known value)
  · exact congrArg (· >>= fun requestBodies => pure { components with requestBodies })
      (Json.readTable_knownValues RequestBody.read_known value)

/-! ### Operations and paths -/

/-- An operation without what is not known of it. -/
def Operation.known : Json → Json :=
  Json.knownFields shape fun name value => match name with
    | "requestBody" => RefOr.known RequestBody.known value
    | "responses" => Json.knownValues (RefOr.known Response.known) value
    | _ => value

/-- A path item without what is not known of it. -/
def PathItem.known : Json → Json :=
  Json.knownFields shape fun _ value => Operation.known value

/-- The table of paths without the extensions and without what is not known of the others. -/
def Document.knownPaths : Json → Json :=
  Json.mapMembers fun members =>
    Entries.mapValues PathItem.known (members.filter (!isExtension ·.1))

/-- A value without what a reader of documents does not know. -/
def Document.known : Json → Json :=
  Json.knownFields shape fun name value => match name with
    | "paths" => knownPaths value
    | "components" => Components.known value
    | _ => value

theorem Operation.ofJson_known (value : Json) : ofJson (known value) = ofJson value := by
  refine Json.readRecord_knownFields (fun operation name value hname => ?_) value
  obtain rfl | rfl | rfl | rfl : name = "operationId" ∨ name = "tags" ∨ name = "requestBody" ∨
      name = "responses" := by simpa [shape, Shape.names] using hname
  · rfl
  · rfl
  · have hbody := Json.readOptional_known
      (RefOr.ofJson_known RequestBody.read_known (Json.target?_knownFields (by decide)))
      (RefOr.isNull_known Json.isNull_knownFields) value
    exact congrArg (· >>= fun requestBody => pure { operation with requestBody }) hbody
  · have hresponses := Json.readTable_knownValues
      (RefOr.ofJson_known Response.read_known (Json.target?_knownFields (by decide))) value
    exact congrArg (· >>= fun responses => pure { operation with responses }) hresponses

theorem PathItem.ofJson_known (value : Json) : ofJson (known value) = ofJson value := by
  refine Json.readRecord_knownFields (fun item name value hname => ?_) value
  simp only [Json.readOptional_known Operation.ofJson_known Json.isNull_knownFields]

namespace Document

theorem pathItems_filter (entries : Entries Json) :
    pathItems (entries.filter (!isExtension ·.1)) = pathItems entries := by
  induction entries with
  | nil => rfl
  | cons entry rest ih =>
    by_cases hpath : isExtension entry.1
    · rw [List.filter_cons_of_neg (by simpa using hpath), ih, pathItems, if_pos hpath]
    · rw [List.filter_cons_of_pos (by simpa using hpath), pathItems, pathItems, ih]

theorem pathItems_mapValues (entries : Entries Json) :
    pathItems (entries.mapValues PathItem.known) = pathItems entries := by
  induction entries with
  | nil => rfl
  | cons entry rest ih =>
    have hmap : Entries.mapValues PathItem.known (entry :: rest) =
        (entry.1, PathItem.known entry.2) :: Entries.mapValues PathItem.known rest := rfl
    rw [hmap, pathItems, pathItems, PathItem.ofJson_known, ih]

theorem readEntries_keep (members old : Entries Json) :
    Source.readEntries Json.source.keep (members.map fun member => (.ok member.1, member.2)) old =
      .ok (Entries.merge old members) := by
  induction members generalizing old with
  | nil => rfl
  | cons member rest ih => exact ih (old.insert member.1 member.2)

/-- An object is read as a table first, and then path by path. -/
theorem readPaths_object (members : Entries Json) :
    readPaths Json.source (.object members) = pathItems (Entries.ofList members) := by
  have htable : Json.source.readTable Json.source.keep (.object members) =
      .ok (Entries.ofList members) := by
    have hcontents : Json.source.readTable Json.source.keep (.object members) =
        Source.readEntries Json.source.keep
          (members.map fun member => (.ok member.1, member.2)) [] >>= pure := rfl
    rw [hcontents, readEntries_keep]
    rfl
  have hoptional : Json.source.readOptional (Json.source.readTable Json.source.keep)
      (.object members) = .ok (some (Entries.ofList members)) :=
    congrArg (some <$> ·) htable
  rw [readPaths, hoptional]
  simp only [bind, Except.bind, Option.getD_some]
  cases pathItems (Entries.ofList members) <;> rfl

theorem readPaths_knownPaths (value : Json) :
    readPaths Json.source (knownPaths value) = readPaths Json.source value := by
  cases value with
  | null | bool | number | string | array => rfl
  | object members =>
    have hmap := Entries.merge_mapValues PathItem.known [] (members.filter (!isExtension ·.1))
    have hfilter := Entries.filter_merge (!isExtension ·) [] members
    rw [knownPaths, Json.mapMembers, readPaths_object, readPaths_object]
    calc pathItems (Entries.ofList
          (Entries.mapValues PathItem.known (members.filter (!isExtension ·.1))))
        = pathItems (Entries.mapValues PathItem.known
            (Entries.merge [] (members.filter (!isExtension ·.1)))) := congrArg pathItems hmap
      _ = pathItems (Entries.merge [] (members.filter (!isExtension ·.1))) :=
        pathItems_mapValues _
      _ = pathItems ((Entries.merge [] members).filter (!isExtension ·.1)) :=
        congrArg pathItems hfilter.symm
      _ = pathItems (Entries.ofList members) := pathItems_filter _

theorem ofJson_known (value : Json) : ofJson (known value) = ofJson value := by
  refine congrArg (Except.mapError DocumentError.ofValue)
    (Json.readRecord_knownFields (fun document name value hname => ?_) value)
  obtain rfl | rfl | rfl : name = "openapi" ∨ name = "paths" ∨ name = "components" := by
    simpa [shape, Shape.names] using hname
  · rfl
  · exact congrArg (· >>= fun paths => pure { document with paths }) (readPaths_knownPaths value)
  · exact congrArg (· >>= fun components => pure { document with components })
      (Components.read_known value)

end Document

end CrudUi
