import CrudUi.Proofs.Compile.Entities
import CrudUi.Proofs.Crud.Collections
import CrudUi.Proofs.Inference.Projections
import CrudUi.Proofs.Inference.Properties
import CrudUi.Proofs.Text.ByteOrder
import CrudUi.Proofs.Walk.Grouping
import CrudUi.Proofs.Walk.Names

/-!
# Compiled entities are well formed

Whatever a document says, the entities that it is compiled to are well formed
(`Entity.WellFormed`), and the choices of their fields are the allowed values of properties of the
document (`Document.wellFormed_of_compile`).  Each part comes from one stage: the names and the path
from the grouping of the operations, the fields from an object that the draft shows, the key and the
views from the fields.

## Main definitions

* `Entity.WellFormed` : what holds of every compiled entity by itself.
* `Draft.Shows` : an object may give a draft its fields.
-/

namespace CrudUi

/-- What holds of every entity that stands under an id. -/
structure Entity.WellFormed (entity : Entity) (id : String) : Prop where
  id_eq : entity.id = id
  id_ne_empty : entity.id ≠ ""
  title_ne_empty : entity.title ≠ ""
  exists_endpoint : ∃ action endpoint, entity.endpoints.get? action = some endpoint
  /-- The path is that of a collection. -/
  head?_resourcePath : entity.resourcePath.toList.head? = some '/'
  isItem_resourcePath : Path.isItem entity.resourcePath = false
  /-- The names of the fields ascend by their bytes. -/
  ascending_names :
    (entity.fields.map Field.name).Pairwise (Text.bytes · < Text.bytes ·)
  nodup_names : (entity.fields.map Field.name).Nodup
  primaryKey_mem : ∀ key, entity.primaryKey = some key → key ∈ entity.fields.map Field.name
  /-- The detail view shows every field. -/
  detail_eq : entity.views.detail = entity.fields.map Field.name
  columns_subset : entity.views.columns ⊆ entity.fields.map Field.name
  nodup_columns : entity.views.columns.Nodup
  form_subset : entity.views.form ⊆ entity.fields.map Field.name
  nodup_form : entity.views.form.Nodup

theorem Naming.humanize_ne_empty {name : String} (h : name ≠ "") : humanize name ≠ "" := by
  simp only [humanize]
  split
  · exact h
  · rename_i hlabel
    simpa [String.ofList_eq_empty_iff] using hlabel

namespace Draft

variable {components : Components}

/-! ### Names and paths -/

/-- An entity under whose id operations have been gathered is well formed, if the names of its
fields ascend. -/
theorem Gathers.wellFormed {draft : Draft} {id : String} {operations : List CrudOperation}
    (h : draft.Gathers components id operations)
    (hid : ∀ operation ∈ operations, (operation.identify components).1 = id)
    {fields : List Field} (hfields : (fields.map Field.name).Pairwise (· < ·)) :
    (draft.entity fields).WellFormed id := by
  obtain ⟨⟨operation, hoperation, hwidth⟩, -⟩ := h.resourcePath_isLeast
  have hpath : draft.resourcePath = operation.resource := Path.width_injective hwidth.symm
  have hne : draft.id ≠ "" := by
    rw [h.id_eq, ← hid operation hoperation]
    exact operation.identify_ne_empty components
  have hsame : operation ∈ operations.filter (·.action = operation.action) :=
    List.mem_filter.mpr ⟨hoperation, decide_eq_true rfl⟩
  have hendpoint := h.endpoints_eq operation.action
  rw [List.getLast?_eq_some_getLast (List.ne_nil_of_mem hsame)] at hendpoint
  refine ⟨h.id_eq, hne, Naming.humanize_ne_empty hne, ⟨_, _, hendpoint⟩, ?_, ?_,
    hfields.imp Text.lt_iff_bytes_lt.mp, hfields.nodup, fun _ => mem_names_of_inferPrimaryKey, rfl,
    listColumns_subset, nodup_listColumns hfields.nodup, formFields_subset,
    nodup_formFields hfields.nodup⟩
  · exact (congrArg (·.toList.head?) hpath).trans (Path.head?_resource operation.path)
  · exact (congrArg Path.isItem hpath).trans (Path.isItem_resource operation.path)

/-! ### Fields -/

/-- An object may give a draft its fields: it is what is left of the component that names the
draft, or of a payload, when there are no more items to go into. -/
structure Shows (draft : Draft) (components : Components) (object : Resolved) : Prop where
  reached : (∃ name, draft.schemaName = some name ∧
      Relation.ReflTransGen components.Enters (components.resolveNamed name) object) ∨
    ∃ payload ∈ draft.candidates,
      Relation.ReflTransGen components.Enters (components.resolve payload []) object
  enterItems?_eq : components.enterItems? object = none

theorem exists_object_of_candidateFields? {schemas : List Schema} {fields : List Field}
    (h : candidateFields? components schemas = some fields) (hne : fields ≠ []) :
    ∃ payload ∈ schemas, components.fields? payload = some fields := by
  induction schemas with
  | nil => exact absurd (Option.some.inj h).symm hne
  | cons schema rest ih =>
    obtain ⟨found, hfound, h⟩ := Option.bind_eq_some_iff.mp h
    split at h
    · obtain ⟨payload, hpayload, hfields⟩ := ih h
      exact ⟨payload, List.mem_cons_of_mem _ hpayload, hfields⟩
    · obtain rfl : found = fields := Option.some.inj h
      exact ⟨schema, List.mem_cons_self, hfound⟩

/-- The fields of a draft, if there are any, are those of an object that it shows. -/
theorem exists_shows_of_fields? {draft : Draft} {fields : List Field}
    (h : draft.fields? components = some fields) (hne : fields ≠ []) :
    ∃ object, draft.Shows components object ∧ components.objectFields object = fields := by
  rcases namedFields?_or_candidateFields?_of_fields? h with ⟨name, hname, hnamed⟩ | hcandidate
  · obtain ⟨object, ⟨hreach, hend⟩, hobject⟩ := (Components.fieldsOf?_eq_some_iff
      (Components.within_resolveNamed components name)).mp hnamed
    exact ⟨object, ⟨.inl ⟨name, hname, hreach⟩, hend⟩, hobject⟩
  · obtain ⟨payload, hpayload, hfields⟩ := exists_object_of_candidateFields? hcandidate hne
    obtain ⟨object, ⟨hreach, hend⟩, hobject⟩ := (Components.fieldsOf?_eq_some_iff
      (Components.within_resolve components payload)).mp hfields
    exact ⟨object, ⟨.inr ⟨payload, hpayload, hreach⟩, hend⟩, hobject⟩

end Draft

/-- The fields of an entity are properties of an object: each bears the name of one, and its choices
are the texts of the values that the resolved property allows. -/
def Entity.FieldsOf (entity : Entity) (components : Components) (object : Resolved) : Prop :=
  ∀ field ∈ entity.fields, ∃ property,
    Entries.lookup field.name object.schema.properties = some property ∧
      Option.Rel Field.IsChoice (components.resolve property object.chain).schema.enumValues
        field.enumValues

namespace Document

/-- The entities of a compiled document are well formed, and if they have fields, these are
properties of an object that the draft shows. -/
theorem wellFormed_of_compile {document : Document} {ui : UiSchema}
    (h : document.compile = .ok ui) {id : String} {entity : Entity}
    (hentity : (id, entity) ∈ ui.entities) :
    entity.WellFormed id ∧ ∃ draft, document.drafts.lookup id = some draft ∧
      (entity.fields ≠ [] → ∃ object, draft.Shows document.components object ∧
        entity.FieldsOf document.components object) := by
  obtain ⟨draft, fields, hdraft, hfields, rfl⟩ := exists_draft_of_mem_entities h hentity
  rw [mem_drafts_iff] at hdraft
  refine ⟨(gathers_of_lookup_drafts hdraft).wellFormed (fun operation hoperation => ?_)
    (Draft.pairwise_names_fields? hfields), draft, hdraft, fun hne => ?_⟩
  · simpa using (List.mem_filter.mp hoperation).2
  · obtain ⟨object, hshows, hobject⟩ := Draft.exists_shows_of_fields? hfields hne
    refine ⟨object, hshows, fun field hfield => ?_⟩
    obtain ⟨-, property, hproperty, heq⟩ := Components.mem_objectFields_iff.mp (hobject ▸ hfield)
    refine ⟨property, hproperty, ?_⟩
    rw [congrArg Field.enumValues heq]
    exact Field.rel_isChoice_map_enumTexts _

/-! ### Pets -/

/-- A pet is of one of two kinds. -/
def petSchema : Schema where
  type := some (.single "object")
  properties := [
    ("kind", { enumValues := some [.string "dog", .number (.int 7), .string "cat", .string "dog"] }),
    ("id", { type := some (.single "integer"), readOnly := some true }),
    ("tags", { type := some (.single "array"), items := some {} })]
  required := ["kind"]

/-- The payload of one pet. -/
def petContent : Entries MediaType :=
  [("application/json", { schema := some (.ofReference "#/components/schemas/Pet") })]

/-- The paths of a pet and of all pets. -/
def petPaths : Entries PathItem :=
  [("/pets/{petId}", { get := some { responses := [("200", .inline { content := petContent })] } }),
    ("/pets", { post := some { requestBody := some (.inline { content := petContent }) } })]

/-- A document with given paths to pets. -/
def petDocument (paths : Entries PathItem) : Document where
  openapi := some (.string "3.0.0")
  paths := paths
  components := { schemas := [("Pet", petSchema)] }

/-- The entity of the pets. -/
def pet : Entity where
  id := "Pet"
  title := "Pet"
  resourcePath := "/pets"
  primaryKey := some "id"
  fields := [
    { name := "id", label := "Id", type := .integer, required := false, readOnly := some true },
    { name := "kind", label := "Kind", type := .unknown, required := true,
      enumValues := some ["7", "cat", "dog"] },
    { name := "tags", label := "Tags", type := .array, required := false }]
  endpoints := {
    create := some { method := "POST", path := "/pets" }
    read := some { method := "GET", path := "/pets/{petId}" } }
  views := {
    columns := ["id", "kind"]
    detail := ["id", "kind", "tags"]
    form := ["kind", "tags"] }

/-- What the paths say about the pets. -/
def petDraft : Draft where
  id := "Pet"
  resourcePath := "/pets"
  endpoints := pet.endpoints
  schemaName := some "Pet"
  candidates := [.ofReference "#/components/schemas/Pet", .ofReference "#/components/schemas/Pet"]

theorem namedFields?_pet (paths : Entries PathItem) :
    (petDocument paths).components.namedFields? "Pet" = some pet.fields := by
  have hplain : petSchema.IsPlain := ⟨rfl, rfl⟩
  rw [Components.namedFields?_of_isPlain rfl hplain (by decide),
    Components.objectFields_of_forall_isPlain (by decide)]
  decide

theorem compile_petDocument {paths : Entries PathItem} {draft : Draft}
    (hdrafts : (petDocument paths).drafts = [("Pet", draft)]) (hname : draft.schemaName = some "Pet") :
    (petDocument paths).compile = .ok { entities := [("Pet", draft.entity pet.fields)] } := by
  have hversion : (petDocument paths).checkVersion = .ok () :=
    checkVersion_eq_ok_iff.mpr ⟨"3.0.0", rfl, by decide⟩
  exact compile_of_drafts_eq_singleton hversion hdrafts hname (namedFields?_pet paths) (by decide)

theorem compile_petPaths :
    (petDocument petPaths).compile = .ok { entities := [("Pet", pet)] } := by
  have hdrafts : (petDocument petPaths).drafts = [("Pet", petDraft)] := by decide +kernel
  have hpet : petDraft.entity pet.fields = pet := by decide
  rw [compile_petDocument hdrafts rfl, hpet]

theorem wellFormed_pet :
    (petDocument petPaths).compile = .ok { entities := [("Pet", pet)] } ∧
      pet.WellFormed "Pet" ∧ ∃ draft, (petDocument petPaths).drafts.lookup "Pet" = some draft ∧
        (pet.fields ≠ [] → ∃ object, draft.Shows (petDocument petPaths).components object ∧
          pet.FieldsOf (petDocument petPaths).components object) :=
  ⟨compile_petPaths, wellFormed_of_compile compile_petPaths (List.mem_singleton_self _)⟩

end Document

end CrudUi
