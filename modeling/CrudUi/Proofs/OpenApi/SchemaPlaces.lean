import CrudUi.Proofs.OpenApi.DocumentPlaces

/-!
# Places of schemas

A schema stands under a name in the components, or as the payload of a request or a response, or
inside such a schema: as a property, as the items of a list or as a branch of a composition.  Each
of these is a place in the value that a document is read from, and a place in the document, and the
reading goes from one to the other (`SchemaPlace.mirrors`).  As every value is read as a schema,
whatever is put in the place of a schema gives a document again, in which nothing but that schema
has changed, and what a reader of documents does not know changes nothing (`Document.ofJson_put`).

## Main definitions

* `SchemaPlace` : a place of a schema in a document.
* `SchemaPlace.inJson`, `SchemaPlace.inDocument` : the place in a value and in a document.
-/

namespace CrudUi

open Json (Mirrors recordField member element)

/-! ### Inside a schema -/

namespace Schema

/-- The properties of a schema. -/
def propertiesPlace : Place Schema (Entries Schema) :=
  .field (·.properties) (fun properties schema => { schema with properties })
    (fun whole => by cases whole; rfl) (fun _ _ => rfl) fun _ _ _ => rfl

/-- The schema of the items of a list. -/
def itemsPlace : Place Schema (Option Schema) :=
  .field (·.items) (fun items schema => { schema with items }) (fun whole => by cases whole; rfl)
    (fun _ _ => rfl) fun _ _ _ => rfl

/-- The keywords that hold lists of branches. -/
inductive BranchKeyword where
  | allOf
  | oneOf
  | anyOf
  deriving DecidableEq, Repr

/-- The name of a keyword. -/
def BranchKeyword.name : BranchKeyword → String
  | .allOf => "allOf"
  | .oneOf => "oneOf"
  | .anyOf => "anyOf"

/-- The branches under a keyword. -/
def branchesPlace : BranchKeyword → Place Schema (List Schema)
  | .allOf => .field (·.allOf) (fun allOf schema => { schema with allOf })
    (fun whole => by cases whole; rfl) (fun _ _ => rfl) fun _ _ _ => rfl
  | .oneOf => .field (·.oneOf) (fun oneOf schema => { schema with oneOf })
    (fun whole => by cases whole; rfl) (fun _ _ => rfl) fun _ _ _ => rfl
  | .anyOf => .field (·.anyOf) (fun anyOf schema => { schema with anyOf })
    (fun whole => by cases whole; rfl) (fun _ _ => rfl) fun _ _ _ => rfl

theorem mirrors_keyword {β : Type} {keyword : String} {readPart : Json → β} {place : Place Schema β}
    (hget : ∀ {members old}, Entries.lookup keyword members = some old →
      place.get? (ofKeywords members) = some (readPart old))
    (hput : ∀ {members old}, Entries.lookup keyword members = some old → ∀ new,
      ofKeywords (Entries.insert keyword new members) =
        place.put (readPart new) (ofKeywords members)) :
    Mirrors True Schema.read (member keyword) (fun value => .ok (readPart value)) place := by
  intro value old whole hvalue hread hold _
  refine ⟨hvalue.member hold, readPart old, rfl, ?_⟩
  obtain ⟨members, rfl, hlookup⟩ := Json.member_get?_eq_some_iff.mp hold
  have hwhole : whole = ofKeywords members := by
    rw [← Except.ok.inj hread, ofJson]
  subst hwhole
  refine ⟨hget hlookup, fun new part' _ hpart' => ?_⟩
  obtain rfl := Except.ok.inj hpart'
  rw [Json.put_member hlookup, Schema.read, ofJson, hput hlookup new]

theorem mirrors_properties :
    Mirrors True Schema.read (member "properties") (fun value => .ok (ofMembers value))
      propertiesPlace := by
  refine mirrors_keyword (fun hlookup => ?_) fun _ new => ?_
  · simp [propertiesPlace, Place.field, ofKeywords_eq, hlookup]
  · simp [propertiesPlace, Place.field, ofKeywords_eq, Entries.lookup_insert]

theorem mirrors_items :
    Mirrors True Schema.read (member "items") Schema.read (itemsPlace.comp .optional) := by
  refine mirrors_keyword (fun hlookup => ?_) fun hlookup new => ?_
  · simp [itemsPlace, Place.field, Place.comp, Place.optional, ofKeywords_eq, hlookup]
  · simp [itemsPlace, Place.field, Place.comp, Place.optional, ofKeywords_eq,
      Entries.lookup_insert, hlookup]

theorem mirrors_branches (keyword : BranchKeyword) :
    Mirrors True Schema.read (member keyword.name) (fun value => .ok (ofItems value))
      (branchesPlace keyword) := by
  refine mirrors_keyword (fun hlookup => ?_) fun _ new => ?_
  · cases keyword <;> rw [BranchKeyword.name] at hlookup <;>
      simp [branchesPlace, Place.field, ofKeywords_eq, hlookup]
  · cases keyword <;>
      simp [branchesPlace, Place.field, ofKeywords_eq, BranchKeyword.name, Entries.lookup_insert]

theorem ofProperties_eq (members : Entries Json) :
    ofProperties members = members.mapValues ofJson := by
  induction members with
  | nil => rfl
  | cons entry rest ih =>
    rw [ofProperties, ih]
    rfl

theorem ofList_eq (items : List Json) : ofList items = items.map ofJson := by
  induction items with
  | nil => rfl
  | cons item rest ih => rw [ofList, ih, List.map_cons]

theorem mirrors_property (name : String) :
    Mirrors True (fun value => .ok (ofMembers value)) (member name) Schema.read (.entry name) := by
  intro value old whole hvalue hread hold _
  refine ⟨hvalue.member hold, ofJson old, rfl, ?_⟩
  obtain ⟨members, rfl, hlookup⟩ := Json.member_get?_eq_some_iff.mp hold
  obtain rfl : Entries.mapValues ofJson members = whole := by
    rw [← Except.ok.inj hread, ofMembers, ofProperties_eq]
  have hfound : Entries.lookup name (Entries.mapValues ofJson members) = some (ofJson old) := by
    rw [Entries.lookup_mapValues, hlookup]
    rfl
  refine ⟨hfound, fun new part' _ hpart' => ?_⟩
  obtain rfl := Except.ok.inj hpart'
  refine congrArg Except.ok ?_
  rw [Json.put_member hlookup, Place.put_entry hfound, Entries.insert_mapValues, ofMembers,
    ofProperties_eq]

theorem mirrors_branch (position : ℕ) :
    Mirrors True (fun value => .ok (ofItems value)) (element position) Schema.read
      (.item position) := by
  intro value old whole hvalue hread hold _
  refine ⟨hvalue.element hold, ofJson old, rfl, ?_⟩
  obtain ⟨items, rfl, hitem⟩ := Json.element_get?_eq_some_iff.mp hold
  obtain rfl : items.map ofJson = whole := by
    rw [← Except.ok.inj hread, ofItems, ofList_eq]
  refine ⟨?_, fun new part' _ hpart' => ?_⟩
  · simp [Place.item, hitem]
  · obtain rfl := Except.ok.inj hpart'
    have hput : (element position).put new (.array items) = .array (items.set position new) := rfl
    refine congrArg Except.ok ?_
    rw [hput, ofItems, ofList_eq, List.map_set]
    rfl

end Schema

/-- A step from a schema to a schema inside it. -/
inductive SchemaStep where
  | property (name : String)
  | items
  | branch (keyword : Schema.BranchKeyword) (position : ℕ)
  deriving DecidableEq, Repr

namespace SchemaStep

/-- Where a step leads in a value. -/
def inJson : SchemaStep → Place Json Json
  | .property name => (member "properties").comp (member name)
  | .items => member "items"
  | .branch keyword position => (member keyword.name).comp (element position)

/-- Where a step leads in a schema. -/
def inSchema : SchemaStep → Place Schema Schema
  | .property name => Schema.propertiesPlace.comp (.entry name)
  | .items => Schema.itemsPlace.comp .optional
  | .branch keyword position => (Schema.branchesPlace keyword).comp (.item position)

theorem get?_null (step : SchemaStep) : step.inJson.get? .null = none := by
  cases step <;> rfl

theorem mirrors (step : SchemaStep) :
    Mirrors True Schema.read step.inJson Schema.read step.inSchema := by
  cases step with
  | property name => exact Schema.mirrors_properties.comp (Schema.mirrors_property name) rfl
  | items => exact Schema.mirrors_items
  | branch keyword position =>
    exact (Schema.mirrors_branches keyword).comp (Schema.mirrors_branch position) rfl

end SchemaStep

/-! ### Payloads -/

namespace Document

/-- The operation of a path and a method in a value. -/
def operationInJson (path : String) (method : Method) : Place Json Json :=
  ((recordField shape "paths").comp (pathMember path)).comp
    (recordField PathItem.shape method.field)

/-- The operation of a path and a method in a document. -/
def operationPlace (path : String) (method : Method) : Place Document Operation :=
  (pathsPlace.comp (.entry path)).comp ((PathItem.operationPlace method).comp .optional)

theorem get?_pathMember_null (path : String) : (pathMember path).get? .null = none :=
  ite_self _

theorem mirrors_operation (path : String) (method : Method) :
    Mirrors False (read Json.source) (operationInJson path method) Operation.ofJson
      (operationPlace path method) :=
  (mirrors_paths.comp (mirrors_pathMember path) (get?_pathMember_null path)).comp
    (PathItem.mirrors_operation method) rfl

end Document

/-- What holds a table of payloads: the request or a response of an operation, or one that is named
in the components. -/
inductive PayloadHolder where
  | requestBody (path : String) (method : Method)
  | response (path : String) (method : Method) (code : String)
  | namedRequestBody (name : String)
  | namedResponse (name : String)
  deriving DecidableEq, Repr

namespace PayloadHolder

/-- Where the payloads stand in a value. -/
def inJson : PayloadHolder → Place Json Json
  | .requestBody path method =>
    ((Document.operationInJson path method).comp (recordField Operation.shape "requestBody")).comp
      (Json.definitionField RequestBody.shape "content" (by decide))
  | .response path method code =>
    (((Document.operationInJson path method).comp (recordField Operation.shape "responses")).comp
      (member code)).comp (Json.definitionField Response.shape "content" (by decide))
  | .namedRequestBody name =>
    (((recordField Document.shape "components").comp
      (recordField Components.shape "requestBodies")).comp (member name)).comp
        (recordField RequestBody.shape "content")
  | .namedResponse name =>
    (((recordField Document.shape "components").comp
      (recordField Components.shape "responses")).comp (member name)).comp
        (recordField Response.shape "content")

/-- Where the payloads stand in a document. -/
def inDocument : PayloadHolder → Place Document (Entries MediaType)
  | .requestBody path method =>
    ((Document.operationPlace path method).comp (Operation.requestBodyPlace.comp .optional)).comp
      (RefOr.inlined.comp RequestBody.contentPlace)
  | .response path method code =>
    (((Document.operationPlace path method).comp Operation.responsesPlace).comp
      (.entry code)).comp (RefOr.inlined.comp Response.contentPlace)
  | .namedRequestBody name =>
    ((Document.componentsPlace.comp Components.requestBodiesPlace).comp (.entry name)).comp
      RequestBody.contentPlace
  | .namedResponse name =>
    ((Document.componentsPlace.comp Components.responsesPlace).comp (.entry name)).comp
      Response.contentPlace

theorem mirrors (holder : PayloadHolder) :
    Mirrors True (Document.read Json.source) holder.inJson
      (Json.source.readTable (MediaType.read Json.source)) holder.inDocument := by
  cases holder with
  | requestBody path method =>
    exact ((Document.mirrors_operation path method).comp Operation.mirrors_requestBody rfl).comp
      (RefOr.mirrors_inlined (by decide) RequestBody.mirrors_content) rfl
  | response path method code =>
    exact (((Document.mirrors_operation path method).comp Operation.mirrors_responses rfl).comp
      (Json.mirrors_member code) rfl).comp
        (RefOr.mirrors_inlined (by decide) Response.mirrors_content) rfl
  | namedRequestBody name =>
    exact ((Document.mirrors_components.comp Components.mirrors_requestBodies rfl).comp
      (Json.mirrors_member name) rfl).comp RequestBody.mirrors_content rfl
  | namedResponse name =>
    exact ((Document.mirrors_components.comp Components.mirrors_responses rfl).comp
      (Json.mirrors_member name) rfl).comp Response.mirrors_content rfl

end PayloadHolder

/-! ### Places of schemas -/

/-- Where a schema stands that is inside no other. -/
inductive SchemaRoot where
  | component (name : String)
  | payload (holder : PayloadHolder) (mediaType : String)
  deriving DecidableEq, Repr

namespace SchemaRoot

/-- Where the schema stands in a value. -/
def inJson : SchemaRoot → Place Json Json
  | .component name =>
    ((recordField Document.shape "components").comp (recordField Components.shape "schemas")).comp
      (member name)
  | .payload holder mediaType =>
    (holder.inJson.comp (member mediaType)).comp (recordField MediaType.shape "schema")

/-- Where the schema stands in a document. -/
def inDocument : SchemaRoot → Place Document Schema
  | .component name => (Document.componentsPlace.comp Components.schemasPlace).comp (.entry name)
  | .payload holder mediaType =>
    (holder.inDocument.comp (.entry mediaType)).comp (MediaType.schemaPlace.comp .optional)

/-- Whether the schema is a payload, which may be missing. -/
def IsPayload : SchemaRoot → Prop
  | .component _ => False
  | .payload _ _ => True

theorem mirrors (root : SchemaRoot) :
    Mirrors (¬root.IsPayload) (Document.read Json.source) root.inJson Schema.read
      root.inDocument := by
  cases root with
  | component name =>
    have hcomponent := (Document.mirrors_components.comp Components.mirrors_schemas rfl).comp
      (Json.mirrors_member name) rfl
    exact hcomponent.mono fun _ => trivial
  | payload holder mediaType =>
    have hpayload := (holder.mirrors.comp (Json.mirrors_member mediaType) rfl).comp
      MediaType.mirrors_schema rfl
    exact hpayload.mono fun h => h trivial

end SchemaRoot

/-- A place of a schema in a document: where the outermost schema around it stands, and the steps
that lead from there to the schema. -/
structure SchemaPlace where
  root : SchemaRoot
  steps : List SchemaStep := []
  deriving DecidableEq, Repr

namespace SchemaPlace

/-- The place in the value that a document is read from. -/
def inJson (place : SchemaPlace) : Place Json Json :=
  place.steps.foldl (fun whole step => whole.comp step.inJson) place.root.inJson

/-- The place in a document. -/
def inDocument (place : SchemaPlace) : Place Document Schema :=
  place.steps.foldl (fun whole step => whole.comp step.inSchema) place.root.inDocument

/-- Whether the place is that of a whole payload. -/
def IsPayload (place : SchemaPlace) : Prop :=
  place.steps = [] ∧ place.root.IsPayload

theorem mirrors_foldl {nullable : Prop} {outerJson : Place Json Json}
    {outer : Place Document Schema} (steps : List SchemaStep)
    (h : Mirrors nullable (Document.read Json.source) outerJson Schema.read outer) :
    Mirrors (steps = [] → nullable) (Document.read Json.source)
      (steps.foldl (fun whole step => whole.comp step.inJson) outerJson) Schema.read
      (steps.foldl (fun whole step => whole.comp step.inSchema) outer) := by
  induction steps generalizing nullable outerJson outer with
  | nil => exact h.mono fun hnullable => hnullable rfl
  | cons step rest ih =>
    exact (ih (h.comp step.mirrors step.get?_null)).mono fun _ _ => trivial

/-- The reading of a document puts at each place of a schema what it makes of the value there. -/
theorem mirrors (place : SchemaPlace) :
    Mirrors (¬place.IsPayload) (Document.read Json.source) place.inJson Schema.read
      place.inDocument :=
  (mirrors_foldl place.steps place.root.mirrors).mono fun hpayload hsteps hroot =>
    hpayload ⟨hsteps, hroot⟩

end SchemaPlace

/-! ### Documents that are read again -/

namespace Document

theorem ofJson_eq_ok_iff {value : Json} {document : Document} :
    ofJson value = .ok document ↔ read Json.source value = .ok document := by
  rw [ofJson]
  cases read Json.source value <;> simp [Except.mapError]

/-- Where a document is read from a value, at every place of a schema there is the schema that is
read from what stands there, and anything but a null that is put there instead gives the document
with the schema that is read from that.  No other part of the document depends on what is not known
to a reader of documents. -/
theorem ofJson_put {value : Json} {document : Document} (hnames : value.HasDistinctNames)
    (hread : ofJson value = .ok document) :
    (∀ (place : SchemaPlace) (old : Json), place.inJson.get? value = some old →
      (place.IsPayload → old ≠ .null) →
        place.inDocument.get? document = some (Schema.ofJson old) ∧
          ∀ new, new ≠ .null → ofJson (place.inJson.put new value) =
            .ok (place.inDocument.put (Schema.ofJson new) document)) ∧
      ∀ other, known other = known value → ofJson other = .ok document := by
  constructor
  · intro place old hold hpayload
    obtain ⟨-, part, hpart, hget, hput⟩ := place.mirrors hnames (ofJson_eq_ok_iff.mp hread) hold
      fun hnull hplace => hpayload hplace hnull
    obtain rfl := Except.ok.inj hpart
    exact ⟨hget, fun new hnew => ofJson_eq_ok_iff.mpr (hput new _ hnew rfl)⟩
  · intro other hother
    rw [← ofJson_known, hother, ofJson_known, hread]

/-- A document with a named schema that has one property, with a list of strings as its value. -/
def taggedPet : Json :=
  .object [("openapi", .string "3.0.3"),
    ("components", .object [("schemas", .object [("Pet", .object [("properties", .object
      [("tags", .object [("type", .string "array"),
        ("items", .object [("type", .string "string")])])])])])])]

/-- The items of that list. -/
def taggedPetItems : SchemaPlace where
  root := .component "Pet"
  steps := [.property "tags", .items]

/-- The document that is read, with a schema for the items. -/
def taggedPetDocument (items : Schema) : Document where
  openapi := some (.string "3.0.3")
  components :=
    { schemas := [("Pet",
        { properties := [("tags", { type := some (.single "array"), items := some items })] })] }

theorem hasDistinctNames_taggedPet : taggedPet.HasDistinctNames := by
  have hstring : (Json.object [("type", .string "string")]).HasDistinctNames :=
    .object (by decide) (List.forall_mem_singleton.mpr (.string _))
  have htags : (Json.object [("type", .string "array"),
      ("items", .object [("type", .string "string")])]).HasDistinctNames := by
    refine .object (by decide) (List.forall_mem_cons.mpr ⟨.string _, ?_⟩)
    exact List.forall_mem_singleton.mpr hstring
  have hcomponents : ∀ {value : Json} (name : String), value.HasDistinctNames →
      (Json.object [(name, value)]).HasDistinctNames := fun name hvalue =>
    .object (List.pairwise_singleton _ name) (List.forall_mem_singleton.mpr hvalue)
  refine .object (by decide) (List.forall_mem_cons.mpr ⟨.string _, ?_⟩)
  refine List.forall_mem_singleton.mpr ?_
  exact hcomponents _ (hcomponents _ (hcomponents _ (hcomponents _ htags)))

/-- The items are any values if a truth value stands in their place. -/
theorem ofJson_put_taggedPet :
    taggedPet.HasDistinctNames ∧
      ofJson taggedPet = .ok (taggedPetDocument { type := some (.single "string") }) ∧
      ofJson (taggedPetItems.inJson.put (.bool true) taggedPet) = .ok (taggedPetDocument {}) := by
  have hread : ofJson taggedPet = .ok (taggedPetDocument { type := some (.single "string") }) := rfl
  have hput := (ofJson_put hasDistinctNames_taggedPet hread).1 taggedPetItems
    (.object [("type", .string "string")]) rfl (by simp)
  exact ⟨hasDistinctNames_taggedPet, hread, hput.2 (.bool true) (by simp)⟩

end Document

end CrudUi
