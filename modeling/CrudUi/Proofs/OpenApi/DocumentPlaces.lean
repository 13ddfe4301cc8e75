import CrudUi.Proofs.Decode.Places
import CrudUi.Proofs.OpenApi.KnownKeys

/-!
# Places in documents

The fields of a document, of its components, its paths and its operations are places in the value
that the document is read from, and places in the document.  The reading goes from one to the other:
each field is mirrored, with the definition that may stand in the place of a reference and with the
paths that are no extensions.
-/

namespace CrudUi

open Json (Mirrors recordField member)

/-! ### Fields of documents -/

namespace MediaType

/-- The schema of a payload. -/
def schemaPlace : Place MediaType (Option Schema) :=
  .field (·.schema) (fun schema media => { media with schema }) (fun _ => rfl) (fun _ _ => rfl)
    fun _ _ _ => rfl

theorem mirrors_schema :
    Mirrors False (read Json.source) (recordField shape "schema") Schema.read
      (schemaPlace.comp .optional) := by
  have hfield : Mirrors True (read Json.source) (recordField shape "schema")
      (Json.readOptional Schema.read) schemaPlace := by
    refine Json.mirrors_recordField (fun acc value => (map_eq_pure_bind _ _).symm)
      (fun acc key value part hkey hne => ?_) (fun _ => rfl) (by decide)
    exact absurd (List.mem_singleton.mp hkey) hne
  exact hfield.optional

end MediaType

namespace RequestBody

/-- The payloads of a request body. -/
def contentPlace : Place RequestBody (Entries MediaType) :=
  .field (·.content) (fun content body => { body with content }) (fun _ => rfl) (fun _ _ => rfl)
    fun _ _ _ => rfl

theorem mirrors_content :
    Mirrors True (read Json.source) (recordField shape "content")
      (Json.source.readTable (MediaType.read Json.source)) contentPlace := by
  refine Json.mirrors_recordField (fun acc value => (map_eq_pure_bind _ _).symm)
    (fun acc key value part hkey hne => ?_) (fun _ => rfl) (by decide)
  exact absurd (List.mem_singleton.mp hkey) hne

end RequestBody

namespace Response

/-- The payloads of a response. -/
def contentPlace : Place Response (Entries MediaType) :=
  .field (·.content) (fun content response => { response with content }) (fun _ => rfl)
    (fun _ _ => rfl) fun _ _ _ => rfl

theorem mirrors_content :
    Mirrors True (read Json.source) (recordField shape "content")
      (Json.source.readTable (MediaType.read Json.source)) contentPlace := by
  refine Json.mirrors_recordField (fun acc value => (map_eq_pure_bind _ _).symm)
    (fun acc key value part hkey hne => ?_) (fun _ => rfl) (by decide)
  obtain rfl : key = "description" := by simpa [shape, Shape.names, hne] using hkey
  cases Json.source.readOptional Json.source.text value <;> rfl

end Response

namespace Components

/-- The named schemas. -/
def schemasPlace : Place Components (Entries Schema) :=
  .field (·.schemas) (fun schemas components => { components with schemas }) (fun _ => rfl)
    (fun _ _ => rfl) fun _ _ _ => rfl

/-- The named responses. -/
def responsesPlace : Place Components (Entries Response) :=
  .field (·.responses) (fun responses components => { components with responses }) (fun _ => rfl)
    (fun _ _ => rfl) fun _ _ _ => rfl

/-- The named request bodies. -/
def requestBodiesPlace : Place Components (Entries RequestBody) :=
  .field (·.requestBodies) (fun requestBodies components => { components with requestBodies })
    (fun _ => rfl) (fun _ _ => rfl) fun _ _ _ => rfl

theorem mem_names {key : String} (h : key ∈ shape.names) :
    key = "schemas" ∨ key = "responses" ∨ key = "requestBodies" := by
  simpa [shape, Shape.names] using h

theorem mirrors_schemas :
    Mirrors True (read Json.source) (recordField shape "schemas")
      (Json.source.readTable Schema.read) schemasPlace := by
  refine Json.mirrors_recordField (fun acc value => (map_eq_pure_bind _ _).symm)
    (fun acc key value part hkey hne => ?_) (fun _ => rfl) (by decide)
  obtain rfl | rfl | rfl := mem_names hkey
  · exact absurd rfl hne
  · cases Json.source.readTable (Response.read Json.source) value <;> rfl
  · cases Json.source.readTable (RequestBody.read Json.source) value <;> rfl

theorem mirrors_responses :
    Mirrors True (read Json.source) (recordField shape "responses")
      (Json.source.readTable (Response.read Json.source)) responsesPlace := by
  refine Json.mirrors_recordField (fun acc value => (map_eq_pure_bind _ _).symm)
    (fun acc key value part hkey hne => ?_) (fun _ => rfl) (by decide)
  obtain rfl | rfl | rfl := mem_names hkey
  · cases Json.source.readTable (fun node => Schema.ofJson <$> Json.source.keep node) value <;> rfl
  · exact absurd rfl hne
  · cases Json.source.readTable (RequestBody.read Json.source) value <;> rfl

theorem mirrors_requestBodies :
    Mirrors True (read Json.source) (recordField shape "requestBodies")
      (Json.source.readTable (RequestBody.read Json.source)) requestBodiesPlace := by
  refine Json.mirrors_recordField (fun acc value => (map_eq_pure_bind _ _).symm)
    (fun acc key value part hkey hne => ?_) (fun _ => rfl) (by decide)
  obtain rfl | rfl | rfl := mem_names hkey
  · cases Json.source.readTable (fun node => Schema.ofJson <$> Json.source.keep node) value <;> rfl
  · cases Json.source.readTable (Response.read Json.source) value <;> rfl
  · exact absurd rfl hne

end Components

namespace Operation

/-- The request body of an operation. -/
def requestBodyPlace : Place Operation (Option (RefOr RequestBody)) :=
  .field (·.requestBody) (fun requestBody operation => { operation with requestBody })
    (fun _ => rfl) (fun _ _ => rfl) fun _ _ _ => rfl

/-- The responses of an operation. -/
def responsesPlace : Place Operation (Entries (RefOr Response)) :=
  .field (·.responses) (fun responses operation => { operation with responses }) (fun _ => rfl)
    (fun _ _ => rfl) fun _ _ _ => rfl

theorem mem_names {key : String} (h : key ∈ shape.names) :
    key = "operationId" ∨ key = "tags" ∨ key = "requestBody" ∨ key = "responses" := by
  simpa [shape, Shape.names] using h

theorem mirrors_requestBody :
    Mirrors False ofJson (recordField shape "requestBody")
      (RefOr.ofJson (RequestBody.read Json.source)) (requestBodyPlace.comp .optional) := by
  have hfield : Mirrors True ofJson (recordField shape "requestBody")
      (Json.readOptional (RefOr.ofJson (RequestBody.read Json.source))) requestBodyPlace := by
    refine Json.mirrors_recordField (fun acc value => (map_eq_pure_bind _ _).symm)
      (fun acc key value part hkey hne => ?_) (fun _ => rfl) (by decide)
    obtain rfl | rfl | rfl | rfl := mem_names hkey
    · cases value.readOptional Json.readString <;> rfl
    · cases value.readList Json.readString <;> rfl
    · exact absurd rfl hne
    · cases Json.source.readTable (RefOr.ofJson (Response.read Json.source)) value <;> rfl
  exact hfield.optional

theorem mirrors_responses :
    Mirrors True ofJson (recordField shape "responses")
      (Json.source.readTable (RefOr.ofJson (Response.read Json.source))) responsesPlace := by
  refine Json.mirrors_recordField (fun acc value => (map_eq_pure_bind _ _).symm)
    (fun acc key value part hkey hne => ?_) (fun _ => rfl) (by decide)
  obtain rfl | rfl | rfl | rfl := mem_names hkey
  · cases value.readOptional Json.readString <;> rfl
  · cases value.readList Json.readString <;> rfl
  · cases value.readOptional (RefOr.ofJson (RequestBody.read Json.source)) <;> rfl
  · exact absurd rfl hne

end Operation

namespace PathItem

/-- A path item with another operation for a method, or none. -/
def withOperation (method : Method) (operation : Option Operation) (item : PathItem) : PathItem :=
  match method with
  | .get => { item with get := operation }
  | .put => { item with put := operation }
  | .post => { item with post := operation }
  | .delete => { item with delete := operation }
  | .options => { item with options := operation }
  | .head => { item with head := operation }
  | .patch => { item with patch := operation }
  | .trace => { item with trace := operation }

theorem withOperation_comm {method method' : Method} (hne : method ≠ method')
    (operation operation' : Option Operation) (item : PathItem) :
    (item.withOperation method operation).withOperation method' operation' =
      (item.withOperation method' operation').withOperation method operation := by
  cases method <;> cases method' <;> first | rfl | exact absurd rfl hne

theorem mem_names {key : String} (h : key ∈ shape.names) :
    ∃ method : Method, key = method.field := by
  obtain ⟨field, hfield, rfl⟩ := List.mem_map.mp h
  obtain ⟨method, -, rfl⟩ := List.mem_map.mp hfield
  exact ⟨method, rfl⟩

/-- The operation of a method. -/
def operationPlace (method : Method) : Place PathItem (Option Operation) :=
  .field (·.operation? method) (withOperation method) (fun _ => by cases method <;> rfl)
    (fun _ _ => by cases method <;> rfl) fun _ _ _ => by cases method <;> rfl

theorem mirrors_operation (method : Method) :
    Mirrors False ofJson (recordField shape method.field) Operation.ofJson
      ((operationPlace method).comp .optional) := by
  have hfield : Mirrors True ofJson (recordField shape method.field)
      (Json.readOptional Operation.ofJson) (operationPlace method) := by
    refine Json.mirrors_recordField (fun acc value => ?_) (fun acc key value part hkey hne => ?_)
      (fun _ => rfl) ?_
    · cases method <;> exact (map_eq_pure_bind _ _).symm
    · obtain ⟨method', rfl⟩ := mem_names hkey
      have hne : method' ≠ method := fun h => hne (h ▸ rfl)
      -- The operation is read first, whatever the method, and then stored under its own.
      calc
        _ = (withOperation method' · (withOperation method part acc)) <$>
              value.readOptional Operation.ofJson := by
          cases method' <;> exact (map_eq_pure_bind _ _).symm
        _ = withOperation method part <$> (withOperation method' · acc) <$>
              value.readOptional Operation.ofJson := by
          simp only [Functor.map_map, withOperation_comm hne]
        _ = _ := by
          cases method' <;> exact congrArg (withOperation method part <$> ·) (map_eq_pure_bind _ _)
    · cases method <;> decide
  exact hfield.optional

end PathItem

namespace Document

/-- The paths of a document. -/
def pathsPlace : Place Document (Entries PathItem) :=
  .field (·.paths) (fun paths document => { document with paths }) (fun _ => rfl) (fun _ _ => rfl)
    fun _ _ _ => rfl

/-- The components of a document. -/
def componentsPlace : Place Document Components :=
  .field (·.components) (fun components document => { document with components }) (fun _ => rfl)
    (fun _ _ => rfl) fun _ _ _ => rfl

theorem mem_names {key : String} (h : key ∈ shape.names) :
    key = "openapi" ∨ key = "paths" ∨ key = "components" := by
  simpa [shape, Shape.names] using h

theorem mirrors_paths :
    Mirrors True (read Json.source) (recordField shape "paths") (readPaths Json.source)
      pathsPlace := by
  refine Json.mirrors_recordField (fun acc value => (map_eq_pure_bind _ _).symm)
    (fun acc key value part hkey hne => ?_) (fun _ => rfl) (by decide)
  obtain rfl | rfl | rfl := mem_names hkey
  · cases Json.source.readOptional Json.source.keep value <;> rfl
  · exact absurd rfl hne
  · cases Components.read Json.source value <;> rfl

theorem mirrors_components :
    Mirrors True (read Json.source) (recordField shape "components")
      (Components.read Json.source) componentsPlace := by
  refine Json.mirrors_recordField (fun acc value => (map_eq_pure_bind _ _).symm)
    (fun acc key value part hkey hne => ?_) (fun _ => rfl) (by decide)
  obtain rfl | rfl | rfl := mem_names hkey
  · cases Json.source.readOptional Json.source.keep value <;> rfl
  · cases readPaths Json.source value <;> rfl
  · exact absurd rfl hne

end Document

/-! ### Definitions in place -/

/-- The definition in place of a reference. -/
def RefOr.inlined {α : Type} : Place (RefOr α) α where
  get?
    | .inline value => some value
    | .reference _ => none
  put value
    | .inline _ => .inline value
    | .reference target => .reference target
  put_get? {whole part} h := by cases whole <;> cases h; rfl
  get?_put _ whole := by cases whole <;> rfl
  put_put _ _ whole := by cases whole <;> rfl

theorem Json.target?_put_recordField {shape : Shape} {name : String} (hname : name ≠ "$ref")
    (part whole : Json) : ((recordField shape name).put part whole).target? = whole.target? := by
  cases whole with
  | null | bool | number | string | array => rfl
  | object members =>
    have hlookup : Entries.lookup "$ref" ((Place.entry name).put part members) =
        Entries.lookup "$ref" members := by
      by_cases hmem : name ∈ Entries.keys members
      · have hput : (Place.entry name).put part members = Entries.insert name part members :=
          if_pos hmem
        rw [hput, Entries.lookup_insert, if_neg hname]
      · have hput : (Place.entry name).put part members = members := if_neg hmem
        rw [hput]
    exact congrArg (Option.bind · Json.string?) hlookup

/-- A field of a definition that is no reference. -/
def Json.definitionField (shape : Shape) (name : String) (hname : name ≠ "$ref") :
    Place Json Json :=
  (recordField shape name).outside (·.target?.isSome) fun part whole => by
    rw [target?_put_recordField hname]

theorem RefOr.mirrors_inlined {α β : Type} {shape : Shape} {name : String}
    (hname : name ≠ "$ref") {read : Json → Decoded α} {readPart : Json → Decoded β}
    {place : Place α β} (h : Mirrors True read (recordField shape name) readPart place) :
    Mirrors True (RefOr.ofJson read) (Json.definitionField shape name hname) readPart
      (RefOr.inlined.comp place) := by
  intro value old whole hvalue hread hold hnull
  obtain ⟨hinline, hjson⟩ := Place.get?_outside_eq_some_iff.mp hold
  have htarget : value.target? = none := by simpa using hinline
  -- The value is no reference, and as the field is not the target of one it does not become one.
  simp only [RefOr.ofJson_eq, htarget] at hread
  split at hread
  · rename_i definition hdefinition
    obtain rfl := Except.ok.inj hread
    obtain ⟨hdistinct, part, hpart, hget, hreplace⟩ := h hvalue hdefinition hjson hnull
    refine ⟨hdistinct, part, hpart, hget, fun new part' hnew hpart' => ?_⟩
    have hput : (Json.definitionField shape name hname).put new value =
        (recordField shape name).put new value := Place.put_outside hold new
    rw [hput, RefOr.ofJson_eq, Json.target?_put_recordField hname, htarget,
      hreplace new part' hnew hpart']
    rfl
  · cases hread

/-! ### Paths -/

namespace Document

/-- The value under a path that is no extension. -/
def pathMember (path : String) : Place Json Json :=
  (member path).outside (fun _ => isExtension path) fun _ _ => rfl

theorem pathItems_insert {path : String} (hpath : isExtension path = false)
    {members : Entries Json} {items : Entries PathItem} {old : Json}
    (hold : Entries.lookup path members = some old) (hread : pathItems members = .ok items) :
    ∃ item, PathItem.ofJson old = .ok item ∧ Entries.lookup path items = some item ∧
      ∀ new item', PathItem.ofJson new = .ok item' →
        pathItems (Entries.insert path new members) = .ok (Entries.insert path item' items) := by
  induction members generalizing items with
  | nil => cases hold
  | cons member rest ih =>
    obtain ⟨key, value⟩ := member
    rw [Entries.lookup] at hold
    rw [pathItems] at hread
    split at hold
    · rename_i hkey
      subst hkey
      obtain rfl := Option.some.inj hold
      rw [if_neg (by simp [hpath])] at hread
      split at hread
      · rename_i item hitem
        obtain ⟨items, hitems, hread⟩ := bind_eq_ok_iff.mp hread
        obtain rfl := pure_eq_ok_iff.mp hread
        refine ⟨item, hitem, if_pos rfl, fun new item' hitem' => ?_⟩
        rw [Entries.insert, if_pos rfl, pathItems, if_neg (by simp [hpath]), hitem',
          Entries.insert, if_pos rfl]
        exact bind_eq_ok_iff.mpr ⟨items, hitems, rfl⟩
      · cases hread
    · rename_i hkey
      split at hread
      · rename_i hextension
        obtain ⟨item, hitem, hlookup, hput⟩ := ih hold hread
        refine ⟨item, hitem, hlookup, fun new item' hitem' => ?_⟩
        rw [Entries.insert, if_neg hkey, pathItems, if_pos hextension]
        exact hput new item' hitem'
      · rename_i hextension
        split at hread
        · rename_i first hfirst
          obtain ⟨items, hitems, hread⟩ := bind_eq_ok_iff.mp hread
          obtain rfl := pure_eq_ok_iff.mp hread
          obtain ⟨item, hitem, hlookup, hput⟩ := ih hold hitems
          refine ⟨item, hitem, (if_neg hkey).trans hlookup, fun new item' hitem' => ?_⟩
          rw [Entries.insert, if_neg hkey, pathItems, if_neg hextension, hfirst, Entries.insert,
            if_neg hkey]
          exact bind_eq_ok_iff.mpr ⟨_, hput new item' hitem', rfl⟩
        · cases hread

theorem mirrors_pathMember (path : String) :
    Mirrors True (readPaths Json.source) (pathMember path) PathItem.ofJson (.entry path) := by
  intro value old whole hvalue hread hold _
  obtain ⟨hpath, hjson⟩ := Place.get?_outside_eq_some_iff.mp hold
  refine ⟨hvalue.member hjson, ?_⟩
  obtain ⟨members, rfl, hlookup⟩ := Json.member_get?_eq_some_iff.mp hjson
  cases hvalue with
  | object hnames _ =>
    rw [readPaths_object, Entries.ofList_of_nodup hnames] at hread
    obtain ⟨item, hitem, hfound, hreplace⟩ := pathItems_insert hpath hlookup hread
    refine ⟨item, hitem, hfound, fun new item' _ hitem' => ?_⟩
    have hput : (pathMember path).put new (.object members) =
        (member path).put new (.object members) := Place.put_outside hold new
    rw [hput, Json.put_member hlookup, readPaths_object,
      Entries.ofList_of_nodup (Entries.nodup_keys_insert path new hnames),
      Place.put_entry hfound]
    exact hreplace new item' hitem'

end Document

end CrudUi
