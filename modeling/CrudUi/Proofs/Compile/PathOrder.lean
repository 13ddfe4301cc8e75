import CrudUi.Proofs.Compile.WellFormed

/-!
# The order of the paths

If the paths of a document are put in another order, the operations of each entity are gathered in
another order.  All names of schemas that the operations of an entity give are its id, so it does
not matter which of them comes first (`Document.schemaName?_eq_of_mem_operationsOf`), and the least
path of a collection does not depend on the order.  What does depend on it is which of two
operations of one action comes last, and which payload is asked for first when no component stands
for the entity (`Document.compile_of_perm_paths`).

## Main definitions

* `Document.withPaths` : a document with other paths.
-/

namespace CrudUi

/-! ### Names of schemas -/

namespace Document

variable {document : Document} {id : String}

/-- The operations of an entity name no schema but the one that the entity is named for. -/
theorem schemaName?_eq_of_mem_operationsOf {operation : CrudOperation}
    (h : operation ∈ document.operationsOf id) {name : String}
    (hname : operation.operation.schemaName? document.components = some name) : name = id := by
  have hid : (operation.identify document.components).1 = id := by
    simpa using (List.mem_filter.mp h).2
  exact (CrudOperation.identify_of_schemaName? hname).symm.trans hid

/-- A draft is named for the schema exactly if some operation names one. -/
theorem schemaName_eq_iff {draft : Draft} (hdraft : document.drafts.lookup id = some draft) :
    draft.schemaName = some id ↔ ∃ operation ∈ document.operationsOf id,
      ∃ name, operation.operation.schemaName? document.components = some name := by
  rw [(gathers_of_lookup_drafts hdraft).schemaName_eq]
  constructor
  · intro h
    obtain ⟨operation, hoperation, hname⟩ := List.exists_of_findSome?_eq_some h
    exact ⟨operation, hoperation, id, hname⟩
  · rintro ⟨operation, hoperation, name, hname⟩
    have hsome : ((document.operationsOf id).findSome?
        (·.operation.schemaName? document.components)).isSome :=
      List.findSome?_isSome_iff.mpr ⟨operation, hoperation, by simp [hname]⟩
    obtain ⟨found, hfound⟩ := Option.isSome_iff_exists.mp hsome
    obtain ⟨other, hother, hfound'⟩ := List.exists_of_findSome?_eq_some hfound
    rw [hfound, schemaName?_eq_of_mem_operationsOf hother hfound']

theorem schemaName_eq_none_or {draft : Draft} (hdraft : document.drafts.lookup id = some draft) :
    draft.schemaName = none ∨ draft.schemaName = some id := by
  cases hname : draft.schemaName with
  | none => exact .inl rfl
  | some name =>
    rw [(gathers_of_lookup_drafts hdraft).schemaName_eq] at hname
    obtain ⟨operation, hoperation, hname⟩ := List.exists_of_findSome?_eq_some hname
    exact .inr (congrArg some (schemaName?_eq_of_mem_operationsOf hoperation hname))

/-- An operation of an entity that refers to its component in a payload names the schema. -/
theorem exists_schemaName?_of_payload {operation : CrudOperation} {payload : Schema}
    (hpayload : payload ∈ operation.payloads document.components)
    (hname : payload.referencedName? = some id) :
    ∃ name, operation.operation.schemaName? document.components = some name := by
  rw [← Option.isSome_iff_exists, Operation.schemaName?, Option.isSome_or, Bool.or_eq_true]
  rcases List.mem_append.mp hpayload with h | h
  · exact .inl (by simp [Option.mem_toList.mp h, hname])
  · exact .inr (by simp [Option.mem_toList.mp h, hname])

end Document

/-! ### Operations in another order -/

theorem eq_of_perm_of_length_le_one {α : Type} {values values' : List α}
    (hperm : values'.Perm values) (hlength : values.length ≤ 1) : values' = values := by
  rcases Nat.le_one_iff_eq_zero_or_eq_one.mp hlength with hzero | hone
  · rw [List.length_eq_zero_iff.mp hzero] at hperm ⊢
    exact hperm.eq_nil
  · obtain ⟨value, rfl⟩ := List.length_eq_one_iff.mp hone
    exact List.perm_singleton.mp hperm

namespace Draft.Gathers

variable {components : Components} {id : String} {draft draft' : Draft}
  {operations operations' : List CrudOperation}

theorem resourcePath_eq_of_perm (h : draft.Gathers components id operations)
    (h' : draft'.Gathers components id operations') (hperm : operations'.Perm operations) :
    draft'.resourcePath = draft.resourcePath := by
  have hleast := h'.resourcePath_isLeast
  simp only [hperm.mem_iff] at hleast
  exact Path.width_injective (hleast.unique h.resourcePath_isLeast)

theorem isSome_get?_iff (h : draft.Gathers components id operations) {action : Action} :
    (draft.endpoints.get? action).isSome ↔ ∃ operation ∈ operations, operation.action = action := by
  rw [h.endpoints_eq, Option.isSome_map, List.getLast?_isSome, ne_eq, List.filter_eq_nil_iff]
  simp

/-- If no two operations have one action, there is one operation at most behind an action, and it is
the last one in any order. -/
theorem endpoints_eq_of_perm (h : draft.Gathers components id operations)
    (h' : draft'.Gathers components id operations') (hperm : operations'.Perm operations)
    (hnodup : (operations.map (·.action)).Nodup) : draft'.endpoints = draft.endpoints := by
  refine Endpoints.ext_get? fun action => ?_
  have hlength : (operations.filter (·.action = action)).length ≤ 1 := by
    have hsame : (operations.filter (·.action = action)).map (·.action) =
        List.replicate (operations.filter (·.action = action)).length action :=
      List.map_eq_replicate_iff.mpr fun operation hoperation => by
        simpa using (List.mem_filter.mp hoperation).2
    have hfilter := hnodup.sublist ((List.filter_sublist (p := (·.action = action))).map _)
    rwa [hsame, List.nodup_replicate] at hfilter
  rw [h.endpoints_eq, h'.endpoints_eq,
    eq_of_perm_of_length_le_one (hperm.filter (·.action = action)) hlength]

end Draft.Gathers

/-! ### Paths in another order -/

/-- If the draft names a component that has fields, they are those of the entity. -/
theorem Draft.entity_fields_eq {draft : Draft} {components : Components} {name : String}
    {fields named : List Field} (hfields : draft.fields? components = some fields)
    (hname : draft.schemaName = some name) (hnamed : components.namedFields? name = some named)
    (hne : named ≠ []) : fields = named :=
  Option.some.inj (hfields.symm.trans (fields?_eq_of_namedFields? hname hnamed hne))

/-- What an entity keeps if the paths of a document are put in another order. -/
structure Entity.KeptFrom (entity' entity : Entity) (document : Document) (id : String) :
    Prop where
  title_eq : entity'.title = entity.title
  resourcePath_eq : entity'.resourcePath = entity.resourcePath
  supports_eq : ∀ action, entity'.supports action = entity.supports action
  /-- If no two operations have one action, there is no last one to choose. -/
  endpoints_eq : ((document.operationsOf id).map (·.action)).Nodup →
    entity'.endpoints = entity.endpoints
  /-- If a payload refers to the component, and that has fields, there is no payload to choose. -/
  fields_eq : (∃ operation ∈ document.operationsOf id,
      ∃ payload ∈ operation.payloads document.components, payload.referencedName? = some id) →
    (∃ fields, document.components.namedFields? id = some fields ∧ fields ≠ []) →
    entity'.fields = entity.fields ∧ entity'.primaryKey = entity.primaryKey ∧
      entity'.views = entity.views

namespace Document

/-- The document with other paths. -/
def withPaths (document : Document) (paths : Entries PathItem) : Document :=
  { document with paths }

variable {document : Document} {paths : Entries PathItem}

theorem operationsOf_withPaths_perm (h : paths.Perm document.paths) (id : String) :
    ((document.withPaths paths).operationsOf id).Perm (document.operationsOf id) :=
  (h.flatMap_right _).filter _

theorem keys_drafts_withPaths (h : paths.Perm document.paths) :
    Entries.keys (document.withPaths paths).drafts = Entries.keys document.drafts := by
  refine Ascending.eq_of_mem_iff (pairwise_keys_drafts _) (pairwise_keys_drafts _) fun id => ?_
  rw [← not_iff_not, ← Entries.lookup_eq_none_iff, ← Entries.lookup_eq_none_iff,
    lookup_drafts_eq_none_iff, lookup_drafts_eq_none_iff]
  have hperm := operationsOf_withPaths_perm h id
  exact ⟨fun hnil => (hnil ▸ hperm).symm.eq_nil, fun hnil => (hnil ▸ hperm).eq_nil⟩

/-- The entity that is made of a draft, and the one that is made of it with the paths in another
order. -/
theorem keptFrom_of_perm (hperm : paths.Perm document.paths) {id : String} {draft draft' : Draft}
    {fields fields' : List Field} (hdraft : document.drafts.lookup id = some draft)
    (hdraft' : (document.withPaths paths).drafts.lookup id = some draft')
    (hfields : draft.fields? document.components = some fields)
    (hfields' : draft'.fields? document.components = some fields') :
    (draft'.entity fields').KeptFrom (draft.entity fields) document id := by
  have hgathers := gathers_of_lookup_drafts hdraft
  have hgathers' := gathers_of_lookup_drafts hdraft'
  have hoperations := operationsOf_withPaths_perm hperm id
  refine ⟨?_, hgathers.resourcePath_eq_of_perm hgathers' hoperations, fun action => ?_,
    hgathers.endpoints_eq_of_perm hgathers' hoperations, ?_⟩
  · rw [Draft.entity, Draft.entity, hgathers.id_eq, hgathers'.id_eq]
  · refine Bool.eq_iff_iff.mpr (hgathers'.isSome_get?_iff.trans ?_)
    simp only [hoperations.mem_iff]
    exact hgathers.isSome_get?_iff.symm
  · rintro ⟨operation, hoperation, payload, hpayload, hrefers⟩ ⟨named, hnamed, hne⟩
    obtain ⟨name, hname⟩ := exists_schemaName?_of_payload hpayload hrefers
    have hschema := (schemaName_eq_iff hdraft).mpr ⟨operation, hoperation, name, hname⟩
    have hschema' := (schemaName_eq_iff hdraft').mpr
      ⟨operation, hoperations.mem_iff.mpr hoperation, name, hname⟩
    obtain rfl := Draft.entity_fields_eq hfields hschema hnamed hne
    obtain rfl := Draft.entity_fields_eq hfields' hschema' hnamed hne
    exact ⟨rfl, rfl, rfl⟩

/-- The names of schemas that the operations of an entity give are all the id of the entity, so a
draft keeps the one or has none.  If the paths of a document that compiles are put in another order
that compiles as well, the entities have the same ids, and each keeps what does not depend on the
last operation of an action or on the first payload with fields. -/
theorem compile_of_perm_paths (document : Document) :
    (∀ id draft, document.drafts.lookup id = some draft →
      (draft.schemaName = none ∨ draft.schemaName = some id) ∧
      ∀ operation ∈ document.operationsOf id, ∀ name,
        operation.operation.schemaName? document.components = some name → name = id) ∧
    ∀ paths : Entries PathItem, paths.Perm document.paths → ∀ ui ui',
      document.compile = .ok ui → (document.withPaths paths).compile = .ok ui' →
      Entries.keys ui'.entities = Entries.keys ui.entities ∧
      ∀ id entity entity', (id, entity) ∈ ui.entities → (id, entity') ∈ ui'.entities →
        entity'.KeptFrom entity document id := by
  refine ⟨fun id draft hdraft => ⟨schemaName_eq_none_or hdraft, fun operation hoperation name =>
    schemaName?_eq_of_mem_operationsOf hoperation⟩, fun paths hperm ui ui' h h' => ⟨?_, ?_⟩⟩
  · rw [keys_entities h, keys_entities h', keys_drafts_withPaths hperm]
  · intro id entity entity' hentity hentity'
    obtain ⟨draft, fields, hdraft, hfields, rfl⟩ := exists_draft_of_mem_entities h hentity
    obtain ⟨draft', fields', hdraft', hfields', rfl⟩ := exists_draft_of_mem_entities h' hentity'
    exact keptFrom_of_perm hperm (mem_drafts_iff.mp hdraft) (mem_drafts_iff.mp hdraft') hfields
      hfields'

/-! ### Two lists of pets -/

/-- Two paths that both list the pets. -/
def petLists : Entries PathItem :=
  [("/pets", { get := some { responses := [("200", .inline { content := petContent })] } }),
    ("/pets/latest", { get := some { responses := [("200", .inline { content := petContent })] } })]

/-- The pets, listed by an operation on a path. -/
def listedPet (path : String) : Draft :=
  { petDraft with endpoints := { list := some { method := "GET", path } } }

theorem compile_petLists :
    (petDocument petLists).compile =
      .ok { entities := [("Pet", (listedPet "/pets/latest").entity pet.fields)] } := by
  have hdrafts : (petDocument petLists).drafts = [("Pet", listedPet "/pets/latest")] := by
    decide +kernel
  exact compile_petDocument hdrafts rfl

theorem compile_petLists_reverse :
    ((petDocument petLists).withPaths petLists.reverse).compile =
      .ok { entities := [("Pet", (listedPet "/pets").entity pet.fields)] } := by
  have hdrafts : (petDocument petLists.reverse).drafts = [("Pet", listedPet "/pets")] := by
    decide +kernel
  have hpaths : (petDocument petLists).withPaths petLists.reverse = petDocument petLists.reverse :=
    rfl
  rw [hpaths]
  exact compile_petDocument hdrafts rfl

/-- Which of the two operations lists the pets depends on their order, and nothing else does. -/
theorem keptFrom_petLists_reverse :
    petLists.reverse.Perm (petDocument petLists).paths ∧
    (petDocument petLists).compile =
      .ok { entities := [("Pet", (listedPet "/pets/latest").entity pet.fields)] } ∧
    ((petDocument petLists).withPaths petLists.reverse).compile =
      .ok { entities := [("Pet", (listedPet "/pets").entity pet.fields)] } ∧
    ((listedPet "/pets").entity pet.fields).KeptFrom
      ((listedPet "/pets/latest").entity pet.fields) (petDocument petLists) "Pet" :=
  ⟨petLists.reverse_perm, compile_petLists, compile_petLists_reverse,
    ((compile_of_perm_paths (petDocument petLists)).2 _ petLists.reverse_perm _ _ compile_petLists
      compile_petLists_reverse).2 _ _ _ (List.mem_singleton_self _) (List.mem_singleton_self _)⟩

end Document

end CrudUi
