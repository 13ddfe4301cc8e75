import Mathlib.Data.List.Nodup
import CrudUi.Compile
import CrudUi.Proofs.Computations
import CrudUi.Proofs.Inference.FieldNames

/-!
# The entities of a compiled document

A document is compiled if its version is one of version 3 and every draft has fields; the entities
are then those of the drafts, one for each, under the same names (`Document.compile_eq_ok_iff`).
-/

namespace CrudUi

/-! ### Versions -/

theorem Document.checkVersion_eq_ok_iff {document : Document} :
    document.checkVersion = .ok () ↔
      ∃ version, document.version? = some version ∧ ['3', '.'] <+: version.toList := by
  rw [checkVersion]
  cases document.version? with
  | none => simp
  | some version =>
    by_cases hmajor : ['3', '.'] <+: version.toList <;> simp [hmajor]

/-! ### Entities -/

namespace Draft

/-- The entity of a draft, with given fields. -/
def entity (draft : Draft) (fields : List Field) : Entity where
  id := draft.id
  title := Naming.humanize draft.id
  resourcePath := draft.resourcePath
  primaryKey := inferPrimaryKey fields
  fields := fields
  endpoints := draft.endpoints
  views := buildViews fields (inferPrimaryKey fields)

theorem build_eq_ok_iff {draft : Draft} {components : Components} {entity : Entity} :
    draft.build components = .ok entity ↔
      ∃ fields, draft.fields? components = some fields ∧ entity = draft.entity fields := by
  rw [build]
  cases draft.fields? components with
  | none => simp
  | some fields => simp [Draft.entity, eq_comm]

section Congruence

variable {draft draft' : Draft} {components components' : Components}

theorem candidateFields?_congr {schemas schemas' : List Schema}
    (h : List.Forall₂ (fun schema schema' =>
      components'.fields? schema' = components.fields? schema) schemas schemas') :
    candidateFields? components' schemas' = candidateFields? components schemas := by
  induction h with
  | nil => rfl
  | cons hschema _ ih => rw [candidateFields?, candidateFields?, hschema, ih]

/-- Of the schemas in a draft and of the components, only the fields matter to the entity. -/
theorem build_congr (hid : draft'.id = draft.id) (hpath : draft'.resourcePath = draft.resourcePath)
    (hendpoints : draft'.endpoints = draft.endpoints)
    (hname : draft'.schemaName = draft.schemaName)
    (hnamed : ∀ name, draft.schemaName = some name →
      components'.namedFields? name = components.namedFields? name)
    (hcandidates : List.Forall₂ (fun schema schema' =>
      components'.fields? schema' = components.fields? schema) draft.candidates draft'.candidates) :
    draft'.build components' = draft.build components := by
  have hfields : draft'.fields? components' = draft.fields? components := by
    rw [fields?, fields?, hname, candidateFields?_congr hcandidates]
    cases hschema : draft.schemaName with
    | none => rfl
    | some name => simp only [hnamed name hschema]
  rw [build, build, hfields, hid, hpath, hendpoints]

end Congruence

/-- If the component that names a draft has fields, they are those of the draft. -/
theorem fields?_eq_of_namedFields? {draft : Draft} {components : Components} {name : String}
    {fields : List Field} (hname : draft.schemaName = some name)
    (hfields : components.namedFields? name = some fields) (hne : fields ≠ []) :
    draft.fields? components = some fields := by
  simp [fields?, hname, hfields, hne]

theorem pairwise_names_candidateFields? {components : Components} {schemas : List Schema}
    {fields : List Field} (h : candidateFields? components schemas = some fields) :
    (fields.map Field.name).Pairwise (· < ·) := by
  induction schemas with
  | nil =>
    obtain rfl : [] = fields := Option.some.inj h
    exact .nil
  | cons schema rest ih =>
    obtain ⟨found, hfound, h⟩ := Option.bind_eq_some_iff.mp h
    split at h
    · exact ih h
    · obtain rfl : found = fields := Option.some.inj h
      exact Components.pairwise_names_of_fieldsOf? hfound

/-- The fields of a draft are those of the component that names it, or of one of its payloads. -/
theorem namedFields?_or_candidateFields?_of_fields? {draft : Draft} {components : Components}
    {fields : List Field} (h : draft.fields? components = some fields) :
    (∃ name, draft.schemaName = some name ∧ components.namedFields? name = some fields) ∨
      candidateFields? components draft.candidates = some fields := by
  cases hname : draft.schemaName with
  | none => exact .inr (by simpa [fields?, hname] using h)
  | some name =>
    simp only [fields?, hname] at h
    obtain ⟨named, hnamed, h⟩ := Option.bind_eq_some_iff.mp h
    split at h
    · exact .inr h
    · obtain rfl : named = fields := Option.some.inj h
      exact .inl ⟨name, rfl, hnamed⟩

/-- Wherever the fields of a draft come from, their names ascend. -/
theorem pairwise_names_fields? {draft : Draft} {components : Components} {fields : List Field}
    (h : draft.fields? components = some fields) : (fields.map Field.name).Pairwise (· < ·) := by
  rcases namedFields?_or_candidateFields?_of_fields? h with ⟨name, -, hnamed⟩ | hcandidate
  · exact Components.pairwise_names_of_fieldsOf? hnamed
  · exact pairwise_names_candidateFields? hcandidate

end Draft

namespace Document

/-- Documents of the same version whose drafts become the same entities are compiled to the same. -/
theorem compile_congr {document document' : Document}
    (hversion : document'.version? = document.version?)
    (hdrafts : List.Forall₂ (fun entry entry' => entry'.1 = entry.1 ∧
      entry'.2.build document'.components = entry.2.build document.components)
      document.drafts document'.drafts) : document'.compile = document.compile := by
  have hcheck : document'.checkVersion = document.checkVersion := by
    rw [checkVersion, checkVersion, hversion]
  have hentry : ∀ entry entry' : String × Draft, entry'.1 = entry.1 ∧
      entry'.2.build document'.components = entry.2.build document.components →
      (do return (entry.1, ← entry.2.build document.components) :
        Except (NoResult CompileError) (String × Entity)) =
        do return (entry'.1, ← entry'.2.build document'.components) := by
    rintro entry entry' ⟨hid, hbuild⟩
    rw [hid, hbuild]
  rw [compile, compile, hcheck, mapM_eq_of_forall₂ hdrafts hentry]

/-- From an entry of the drafts an entity is made, under the same name. -/
theorem compileEntry_eq_ok_iff {components : Components} {entry : String × Draft}
    {built : String × Entity} :
    (do return (entry.1, ← entry.2.build components) : Except (NoResult CompileError) _) =
        .ok built ↔
      ∃ fields, entry.2.fields? components = some fields ∧
        (entry.1, entry.2.entity fields) = built := by
  simp only [bind_eq_ok_iff, pure_eq_ok_iff, Draft.build_eq_ok_iff]
  constructor
  · rintro ⟨_, ⟨fields, hfields, rfl⟩, rfl⟩
    exact ⟨fields, hfields, rfl⟩
  · rintro ⟨fields, hfields, rfl⟩
    exact ⟨_, ⟨fields, hfields, rfl⟩, rfl⟩

/-- Each draft that has fields becomes an entity under the same name. -/
theorem compile_eq_ok_iff {document : Document} {ui : UiSchema} :
    document.compile = .ok ui ↔ document.checkVersion = .ok () ∧ ∃ entities,
      List.Forall₂ (fun entry built => ∃ fields,
        entry.2.fields? document.components = some fields ∧
          (entry.1, entry.2.entity fields) = built) document.drafts entities ∧
      { entities } = ui := by
  rw [compile]
  simp only [bind_eq_ok_iff, pure_eq_ok_iff, mapError_eq_ok_iff]
  simp only [mapM_eq_ok_iff, compileEntry_eq_ok_iff]
  exact ⟨fun ⟨_, h⟩ => h, fun h => ⟨(), h⟩⟩

/-- A document with a single draft, which is named by a component with fields. -/
theorem compile_of_drafts_eq_singleton {document : Document} {id name : String} {draft : Draft}
    {fields : List Field} (hversion : document.checkVersion = .ok ())
    (hdrafts : document.drafts = [(id, draft)]) (hname : draft.schemaName = some name)
    (hfields : document.components.namedFields? name = some fields) (hne : fields ≠ []) :
    document.compile = .ok { entities := [(id, draft.entity fields)] } := by
  refine compile_eq_ok_iff.mpr ⟨hversion, _, ?_, rfl⟩
  rw [hdrafts]
  exact .cons ⟨fields, Draft.fields?_eq_of_namedFields? hname hfields hne, rfl⟩ .nil

/-- A document is compiled if its version is right and every draft has fields. -/
theorem exists_compile_eq_ok_iff {document : Document} :
    (∃ ui, document.compile = .ok ui) ↔ document.checkVersion = .ok () ∧
      ∀ entry ∈ document.drafts, ∃ fields, entry.2.fields? document.components = some fields := by
  simp only [compile_eq_ok_iff, ← compileEntry_eq_ok_iff, ← mapM_eq_ok_iff]
  constructor
  · rintro ⟨ui, hversion, entities, hentities, -⟩
    refine ⟨hversion, fun entry hentry => ?_⟩
    obtain ⟨built, hbuilt⟩ := exists_mapM_eq_ok_iff.mp ⟨entities, hentities⟩ entry hentry
    obtain ⟨fields, hfields, -⟩ := compileEntry_eq_ok_iff.mp hbuilt
    exact ⟨fields, hfields⟩
  · rintro ⟨hversion, h⟩
    obtain ⟨entities, hentities⟩ := exists_mapM_eq_ok_iff.mpr fun entry hentry => by
      obtain ⟨fields, hfields⟩ := h entry hentry
      exact ⟨_, compileEntry_eq_ok_iff.mpr ⟨fields, hfields, rfl⟩⟩
    exact ⟨_, hversion, entities, hentities, rfl⟩

theorem keys_entities {document : Document} {ui : UiSchema} (h : document.compile = .ok ui) :
    Entries.keys ui.entities = Entries.keys document.drafts := by
  obtain ⟨-, entities, hentities, rfl⟩ := compile_eq_ok_iff.mp h
  clear h
  generalize document.drafts = drafts at hentities
  induction hentities with
  | nil => rfl
  | cons hentry _ ih =>
    obtain ⟨fields, -, rfl⟩ := hentry
    exact congrArg (List.cons _) ih

/-- Every entity has been made from a draft. -/
theorem exists_draft_of_mem_entities {document : Document} {ui : UiSchema}
    (h : document.compile = .ok ui) {id : String} {entity : Entity}
    (hentity : (id, entity) ∈ ui.entities) :
    ∃ draft fields, (id, draft) ∈ document.drafts ∧
      draft.fields? document.components = some fields ∧ entity = draft.entity fields := by
  obtain ⟨-, entities, hentities, rfl⟩ := compile_eq_ok_iff.mp h
  obtain ⟨⟨name, draft⟩, hdraft, fields, hfields, heq⟩ := exists_of_forall₂ hentities hentity
  obtain ⟨rfl, rfl⟩ := Prod.mk.inj heq
  exact ⟨draft, fields, hdraft, hfields, rfl⟩

theorem nodup_names_of_mem_entities {document : Document} {ui : UiSchema}
    (h : document.compile = .ok ui) {id : String} {entity : Entity}
    (hentity : (id, entity) ∈ ui.entities) : (entity.fields.map Field.name).Nodup := by
  obtain ⟨draft, fields, -, hfields, rfl⟩ := exists_draft_of_mem_entities h hentity
  exact (Draft.pairwise_names_fields? hfields).nodup

end Document

end CrudUi
