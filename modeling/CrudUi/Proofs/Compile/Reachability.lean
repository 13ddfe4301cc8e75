import CrudUi.Proofs.Compile.Entities
import CrudUi.Proofs.Inference.Reachability
import CrudUi.Proofs.Walk.Grouping

/-!
# Components that no payload leads to

The walk reads no component schema; a draft asks for the one that it is named for, which a payload
refers to, and for those that its payloads lead to.  So whatever stands under the other names, or
whether anything does, makes no difference to what a document is compiled to
(`Document.compile_withSchemas`).

## Main definitions

* `Document.withSchemas` : a document with another table of component schemas.
* `Document.Reaches` : a payload of an operation leads to a component.
-/

namespace CrudUi

/-- Components with another table of schemas. -/
def Components.withSchemas (components : Components) (schemas : Entries Schema) : Components :=
  { components with schemas }

namespace Document

/-- A document with another table of component schemas. -/
def withSchemas (document : Document) (schemas : Entries Schema) : Document :=
  { document with components := document.components.withSchemas schemas }

/-- A payload of an operation that stands for an action leads to a component of the name, whether
it is there or not. -/
def Reaches (document : Document) (name : String) : Prop :=
  ∃ operation ∈ document.crudOperations, ∃ payload ∈ operation.payloads document.components,
    document.components.Reaches payload name

end Document

/-! ### Payloads -/

theorem Components.reaches_of_referencedName? {components : Components} {payload : Schema}
    {name : String} (h : payload.referencedName? = some name) :
    components.Reaches payload name := by
  rw [Schema.referencedName?, Schema.unwrapArray] at h
  cases hitems : payload.items with
  | none =>
    rw [hitems] at h
    exact ⟨payload, .refl, h⟩
  | some items =>
    rw [hitems] at h
    simp only at h
    split at h
    · exact ⟨items, .single (.held (.inl hitems)), h⟩
    · exact ⟨payload, .refl, h⟩

/-- An operation names a schema that one of its payloads refers to. -/
theorem CrudOperation.exists_payload_of_schemaName? {operation : CrudOperation}
    {components : Components} {name : String}
    (h : operation.operation.schemaName? components = some name) :
    ∃ payload ∈ operation.payloads components, payload.referencedName? = some name := by
  rcases Option.or_eq_some_iff.mp h with h | ⟨-, h⟩
  · obtain ⟨payload, hpayload, hname⟩ := Option.bind_eq_some_iff.mp h
    exact ⟨payload, List.mem_append_left _ (Option.mem_toList.mpr hpayload), hname⟩
  · obtain ⟨payload, hpayload, hname⟩ := Option.bind_eq_some_iff.mp h
    exact ⟨payload, List.mem_append_right _ (Option.mem_toList.mpr hpayload), hname⟩

/-! ### Documents -/

namespace Document

variable {document : Document} {schemas : Entries Schema}

/-- The walk does not look into the schemas of components. -/
theorem drafts_withSchemas (document : Document) (schemas : Entries Schema) :
    (document.withSchemas schemas).drafts = document.drafts :=
  rfl

theorem build_withSchemas
    (h : ∀ name, document.Reaches name →
      schemas.lookup name = document.components.schemas.lookup name)
    {id : String} {draft : Draft} (hdraft : (id, draft) ∈ document.drafts) :
    draft.build (document.components.withSchemas schemas) = draft.build document.components := by
  have hgathers := gathers_of_lookup_drafts (mem_drafts_iff.mp hdraft)
  have hagrees : ∀ operation ∈ document.operationsOf id,
      ∀ payload ∈ operation.payloads document.components,
        document.components.AgreesFrom (document.components.withSchemas schemas) payload :=
    fun operation hoperation payload hpayload name hreach =>
      h name ⟨operation, (List.mem_filter.mp hoperation).1, payload, hpayload, hreach⟩
  refine Draft.build_congr rfl rfl rfl rfl (fun name hname => ?_)
    (List.forall₂_same.mpr fun schema hschema => ?_)
  · rw [hgathers.schemaName_eq] at hname
    obtain ⟨operation, hoperation, hname⟩ := List.exists_of_findSome?_eq_some hname
    obtain ⟨payload, hpayload, hname⟩ := CrudOperation.exists_payload_of_schemaName? hname
    exact (hagrees operation hoperation payload hpayload).namedFields?_eq
      (Components.reaches_of_referencedName? hname)
  · rw [hgathers.candidates_eq] at hschema
    obtain ⟨operation, hoperation, hpayload⟩ := List.mem_flatMap.mp hschema
    exact (hagrees operation hoperation schema hpayload).fields?_eq

theorem compile_withSchemas_of_lookup_eq
    (h : ∀ name, document.Reaches name →
      schemas.lookup name = document.components.schemas.lookup name) :
    (document.withSchemas schemas).compile = document.compile := by
  refine compile_congr rfl ?_
  rw [drafts_withSchemas]
  exact List.forall₂_same.mpr fun entry hentry => ⟨rfl, build_withSchemas h hentry⟩

/-- Only the component schemas that payloads lead to matter: with any table that holds the same
under their names, or nothing where there is nothing, a document is compiled to the same; so it is
after a schema is stored under another name, and after another name is taken out. -/
theorem compile_withSchemas (document : Document) :
    (∀ schemas : Entries Schema,
      (∀ name, document.Reaches name →
        schemas.lookup name = document.components.schemas.lookup name) →
      (document.withSchemas schemas).compile = document.compile) ∧
    ∀ name, ¬ document.Reaches name →
      (∀ schema, (document.withSchemas
        (document.components.schemas.insert name schema)).compile = document.compile) ∧
      (document.withSchemas
        (document.components.schemas.filter (·.1 ≠ name))).compile = document.compile := by
  refine ⟨fun schemas => compile_withSchemas_of_lookup_eq, fun name hname => ?_⟩
  have hne : ∀ other, document.Reaches other → name ≠ other := by
    rintro other hother rfl
    exact hname hother
  refine ⟨fun schema => ?_, ?_⟩
  · refine compile_withSchemas_of_lookup_eq fun other hother => ?_
    rw [Entries.lookup_insert, if_neg (hne other hother)]
  · refine compile_withSchemas_of_lookup_eq fun other hother => ?_
    rw [Entries.lookup_filter_ne (hne other hother)]

/-! ### Labels -/

/-- A list of labels. -/
def labelList : Schema where
  type := some (.single "array")
  items := some (.ofReference "#/components/schemas/Label")

/-- A label, with a text. -/
def labelSchema : Schema where
  properties := [("text", {})]

/-- A document that offers labels; nothing refers to its other component. -/
def labels : Document where
  openapi := some (.string "3.0.0")
  paths := [("/labels", { get := some { responses := [("200", .inline {
    content := [("application/json", { schema := some labelList })] })] } })]
  components := { schemas := [("Label", labelSchema), ("Failure", labelSchema)] }

theorem eq_of_reaches_labels {name : String} (h : labels.Reaches name) : name = "Label" := by
  obtain ⟨operation, hoperation, payload, hpayload, hreach⟩ := h
  have hpayloads : labels.crudOperations.map (·.payloads labels.components) = [[labelList]] := rfl
  have hlist : operation.payloads labels.components ∈ [[labelList]] :=
    hpayloads ▸ List.mem_map_of_mem hoperation
  obtain rfl : payload = labelList := by simpa [List.mem_singleton.mp hlist] using hpayload
  have htarget : Reference.schemaName? "#/components/schemas/Label" = some "Label" := by
    decide +kernel
  obtain ⟨part, hpart, hname⟩ := hreach.exists_mem
    [labelList, .ofReference "#/components/schemas/Label", labelSchema, {}]
    (by simp [Components.leads_iff, Schema.Holds, Schema.targetName?, labelList, labelSchema,
      Schema.ofReference, htarget, labels, Entries.lookup])
    (by simp)
  simp only [List.mem_cons, List.not_mem_nil, or_false] at hpart
  rcases hpart with rfl | rfl | rfl | rfl <;>
    simp_all [Schema.targetName?, labelList, labelSchema, Schema.ofReference]

/-- What is filed beside the labels, changed, added to or taken out, makes no difference. -/
theorem compile_labels_withSchemas :
    (labels.withSchemas [("Failure", {}), ("Label", labelSchema), ("Page", labelList)]).compile =
        labels.compile ∧
      ¬ labels.Reaches "Failure" ∧
      (labels.withSchemas (labels.components.schemas.insert "Failure" labelList)).compile =
        labels.compile ∧
      (labels.withSchemas (labels.components.schemas.filter (·.1 ≠ "Failure"))).compile =
        labels.compile := by
  have hfailure : ¬ labels.Reaches "Failure" := fun h => by simpa using eq_of_reaches_labels h
  have hlabels := compile_withSchemas labels
  refine ⟨hlabels.1 _ fun name hname => ?_, hfailure, (hlabels.2 _ hfailure).1 _,
    (hlabels.2 _ hfailure).2⟩
  rw [eq_of_reaches_labels hname]
  rfl

end Document

end CrudUi
