import CrudUi.Walk.Draft
import Mathlib.Data.List.Induction
import Mathlib.Data.List.Nodup
import Mathlib.Data.Prod.Lex
import Mathlib.Data.String.Basic
import Mathlib.Order.Bounds.Basic

/-!
# Drafts as groups of operations

The walk adds one operation after another to a table of drafts.  Seen from one entity, it does
nothing but gather the operations of that entity, in walk order: the table holds a draft under an
id exactly if some operation is identified by it, and the draft is made of these operations alone
(`drafts_eq_groups`).  `Draft.Gathers` says what they make of it, without a word on the order in
which drafts are changed: the last operation of an action is its endpoint, the least path is kept,
the first name is kept, and the payloads are joined.
-/

namespace CrudUi

/-- Paths by width: their bytes are counted first and compared second. -/
def Path.width (path : String) : ℕ ×ₗ String :=
  toLex (path.utf8ByteSize, path)

theorem Path.width_injective : Function.Injective Path.width :=
  fun _ _ h => congrArg (fun width => (ofLex width).2) h

theorem Path.isNarrower_iff {candidate current : String} :
    Path.isNarrower candidate current ↔ Path.width candidate < Path.width current := by
  simp [Path.isNarrower, Path.width, Prod.Lex.toLex_lt_toLex]

namespace CrudOperation

/-- The endpoint that an operation stands for. -/
def endpoint (operation : CrudOperation) : Endpoint :=
  ⟨operation.method.name, operation.path, operation.operation.operationId⟩

/-- The path of the collection that an operation belongs to. -/
def resource (operation : CrudOperation) : String :=
  Path.resource operation.path

/-- The payloads of an operation: of the response, then of the request. -/
def payloads (operation : CrudOperation) (components : Components) : List Schema :=
  (operation.operation.responseSchema? components).toList ++
    (operation.operation.requestSchema? components).toList

end CrudOperation

/-- The operations of one entity, in walk order. -/
def Document.operationsOf (document : Document) (id : String) : List CrudOperation :=
  document.crudOperations.filter fun operation =>
    (operation.identify document.components).1 = id

namespace Draft

/-- What the operations of an entity make of its draft. -/
structure Gathers (draft : Draft) (components : Components) (id : String)
    (operations : List CrudOperation) : Prop where
  id_eq : draft.id = id
  /-- The last operation of an action is behind it. -/
  endpoints_eq : ∀ action, draft.endpoints.get? action =
    (operations.filter (·.action = action)).getLast?.map CrudOperation.endpoint
  /-- The path is the least of those of the operations. -/
  resourcePath_isLeast : IsLeast {width | ∃ operation ∈ operations,
    Path.width operation.resource = width} (Path.width draft.resourcePath)
  /-- The first name that an operation gives is kept. -/
  schemaName_eq : draft.schemaName =
    operations.findSome? (·.operation.schemaName? components)
  candidates_eq : draft.candidates = operations.flatMap (·.payloads components)

variable {components : Components} {id : String}

/-! ### One operation -/

theorem width_resourcePath_absorb (draft : Draft) (operation : CrudOperation) :
    Path.width (draft.absorb components operation).resourcePath =
      min (Path.width draft.resourcePath) (Path.width operation.resource) := by
  simp only [absorb, CrudOperation.resource]
  by_cases h : Path.isNarrower (Path.resource operation.path) draft.resourcePath
  · rw [if_pos h, min_eq_right (Path.isNarrower_iff.mp h).le]
  · rw [if_neg h, min_eq_left (not_lt.mp (mt Path.isNarrower_iff.mpr h))]

/-- The first operation of an entity makes a draft of its own. -/
theorem gathers_singleton (operation : CrudOperation) :
    (absorb { id, resourcePath := operation.resource } components operation).Gathers
      components id [operation] where
  id_eq := rfl
  endpoints_eq action := by
    rw [absorb, Endpoints.get?_set]
    by_cases h : operation.action = action
    · simp [h, CrudOperation.endpoint]
    · cases action <;> simp [h, Endpoints.get?]
  resourcePath_isLeast := by
    rw [width_resourcePath_absorb, min_self]
    refine ⟨⟨operation, List.mem_singleton_self _, rfl⟩, ?_⟩
    rintro width ⟨other, hother, rfl⟩
    rw [List.mem_singleton.mp hother]
  schemaName_eq := by simp [absorb]
  candidates_eq := by simp [absorb, CrudOperation.payloads]

/-- A further operation comes after those gathered before. -/
theorem Gathers.absorb {draft : Draft} {operations : List CrudOperation}
    (h : draft.Gathers components id operations) (operation : CrudOperation) :
    (draft.absorb components operation).Gathers components id (operations ++ [operation]) where
  id_eq := h.id_eq
  endpoints_eq action := by
    rw [Draft.absorb, Endpoints.get?_set, h.endpoints_eq, List.filter_append]
    by_cases haction : operation.action = action
    · simp [haction, CrudOperation.endpoint]
    · simp [haction]
  resourcePath_isLeast := by
    rw [width_resourcePath_absorb]
    refine ⟨?_, ?_⟩
    · obtain ⟨least, hleast, heq⟩ := h.resourcePath_isLeast.1
      rcases min_choice (Path.width draft.resourcePath) (Path.width operation.resource) with
        hmin | hmin
      · exact ⟨least, List.mem_append_left _ hleast, by rw [hmin, heq]⟩
      · exact ⟨operation, by simp, hmin.symm⟩
    · rintro width ⟨other, hother, rfl⟩
      rcases List.mem_append.mp hother with hother | hother
      · exact (min_le_left _ _).trans (h.resourcePath_isLeast.2 ⟨other, hother, rfl⟩)
      · rw [List.mem_singleton.mp hother]
        exact min_le_right _ _
  schemaName_eq := by
    rw [Draft.absorb, List.findSome?_append, ← h.schemaName_eq]
    simp
  candidates_eq := by
    rw [Draft.absorb, List.flatMap_append, ← h.candidates_eq]
    simp [CrudOperation.payloads]

/-! ### All operations -/

/-- Adds an operation to the draft of its entity, or begins the draft. -/
def collect (components : Components) (id : String) (found : Option Draft)
    (operation : CrudOperation) : Option Draft :=
  some ((found.getD { id, resourcePath := operation.resource }).absorb components operation)

/-- Operations, if there are any, make a draft that gathers them. -/
theorem exists_gathers_foldl_collect (components : Components) (id : String)
    {operations : List CrudOperation} (h : operations ≠ []) :
    ∃ draft, operations.foldl (collect components id) none = some draft ∧
      draft.Gathers components id operations := by
  induction operations using List.reverseRecOn with
  | nil => exact absurd rfl h
  | append_singleton operations operation ih =>
    rw [List.foldl_append]
    by_cases hnil : operations = []
    · subst hnil
      exact ⟨_, rfl, gathers_singleton operation⟩
    · obtain ⟨draft, hdraft, hgathers⟩ := ih hnil
      exact ⟨_, by rw [hdraft]; rfl, hgathers.absorb operation⟩

theorem pairwise_keys_gather {drafts : Ascending.Table Draft}
    (h : (Entries.keys drafts).Pairwise (· < ·)) (operation : CrudOperation) :
    (Entries.keys (gather components drafts operation)).Pairwise (· < ·) :=
  Ascending.Table.pairwise_keys_alter h _ _

theorem lookup_gather {drafts : Ascending.Table Draft}
    (h : (Entries.keys drafts).Pairwise (· < ·)) (id : String) (operation : CrudOperation) :
    (gather components drafts operation).lookup id =
      if (operation.identify components).1 = id then
        collect components id (drafts.lookup id) operation
      else drafts.lookup id := by
  rw [gather, Ascending.Table.lookup_alter h]
  split
  · rename_i hid
    subst hid
    rfl
  · rfl

theorem pairwise_keys_foldl_gather (components : Components) (operations : List CrudOperation)
    {drafts : Ascending.Table Draft} (h : (Entries.keys drafts).Pairwise (· < ·)) :
    (Entries.keys (operations.foldl (gather components) drafts)).Pairwise (· < ·) := by
  induction operations generalizing drafts with
  | nil => exact h
  | cons operation rest ih => exact ih (pairwise_keys_gather h operation)

/-- Seen from one entity, gathering leaves out the operations of the others. -/
theorem lookup_foldl_gather (components : Components) (id : String)
    (operations : List CrudOperation) {drafts : Ascending.Table Draft}
    (h : (Entries.keys drafts).Pairwise (· < ·)) :
    (operations.foldl (gather components) drafts).lookup id =
      (operations.filter fun operation => (operation.identify components).1 = id).foldl
        (collect components id) (drafts.lookup id) := by
  induction operations generalizing drafts with
  | nil => rfl
  | cons operation rest ih =>
    rw [List.foldl_cons, ih (pairwise_keys_gather h operation), lookup_gather h]
    by_cases hid : (operation.identify components).1 = id
    · rw [if_pos hid, List.filter_cons_of_pos (by simpa using hid), List.foldl_cons]
    · rw [if_neg hid, List.filter_cons_of_neg (by simpa using hid)]

end Draft

namespace Document

variable {document : Document}

theorem lookup_drafts (document : Document) (id : String) :
    document.drafts.lookup id =
      (document.operationsOf id).foldl (Draft.collect document.components id) none :=
  Draft.lookup_foldl_gather document.components id document.crudOperations List.Pairwise.nil

theorem pairwise_keys_drafts (document : Document) :
    (Entries.keys document.drafts).Pairwise (· < ·) :=
  Draft.pairwise_keys_foldl_gather document.components document.crudOperations List.Pairwise.nil

theorem mem_drafts_iff {id : String} {draft : Draft} :
    (id, draft) ∈ document.drafts ↔ document.drafts.lookup id = some draft :=
  ⟨Entries.lookup_of_mem document.pairwise_keys_drafts.nodup, Entries.mem_of_lookup⟩

theorem lookup_drafts_eq_none_iff {id : String} :
    document.drafts.lookup id = none ↔ document.operationsOf id = [] := by
  rw [lookup_drafts]
  constructor
  · intro h
    by_contra hne
    obtain ⟨draft, hdraft, -⟩ := Draft.exists_gathers_foldl_collect
      document.components id hne
    exact Option.some_ne_none draft (hdraft.symm.trans h)
  · intro h
    rw [h]
    rfl

theorem gathers_of_lookup_drafts {id : String} {draft : Draft}
    (h : document.drafts.lookup id = some draft) :
    draft.Gathers document.components id (document.operationsOf id) := by
  have hne : document.operationsOf id ≠ [] := fun hnil =>
    Option.some_ne_none draft (h.symm.trans (lookup_drafts_eq_none_iff.mpr hnil))
  obtain ⟨other, hother, hgathers⟩ := Draft.exists_gathers_foldl_collect
    document.components id hne
  rw [lookup_drafts, hother, Option.some.injEq] at h
  exact h ▸ hgathers

/-- The walk meets the declared operations that stand for actions. -/
theorem mem_crudOperations_iff {operation : CrudOperation} :
    operation ∈ document.crudOperations ↔
      ∃ item, (operation.path, item) ∈ document.paths ∧
        item.operation? operation.method = some operation.operation ∧
        Path.classify operation.method operation.path = some operation.action := by
  simp only [crudOperations, PathItem.operations, List.mem_flatMap, List.mem_filterMap,
    Option.map_eq_some_iff]
  constructor
  · rintro ⟨⟨path, item⟩, hitem, ⟨method, declared⟩, ⟨_, -, _, hdeclared, heq⟩, action, haction,
      rfl⟩
    obtain ⟨rfl, rfl⟩ := Prod.mk.inj heq
    exact ⟨item, hitem, hdeclared, haction⟩
  · rintro ⟨item, hitem, hdeclared, haction⟩
    exact ⟨_, hitem, (operation.method, operation.operation),
      ⟨operation.method, Method.mem_all _, _, hdeclared, rfl⟩, _, haction, rfl⟩

end Document

/-- The drafts of a document are its operations, grouped by entity: an id has a draft exactly if a
declared operation stands for an action and is identified by it; the draft is what the operations
so identified make of it, in walk order; and another document in which these are the same has the
same draft. -/
theorem drafts_eq_groups (document : Document) (id : String) :
    ((∃ draft, document.drafts.lookup id = some draft) ↔
      ∃ path item method operation action, (path, item) ∈ document.paths ∧
        item.operation? method = some operation ∧ Path.classify method path = some action ∧
        (CrudOperation.identify ⟨path, method, action, operation⟩ document.components).1 = id) ∧
    (∀ draft, document.drafts.lookup id = some draft →
      draft.Gathers document.components id (document.operationsOf id)) ∧
    (∀ operation ∈ document.operationsOf id,
      Path.classify operation.method operation.path = some operation.action) ∧
    ∀ other : Document, other.components = document.components →
      other.operationsOf id = document.operationsOf id →
      other.drafts.lookup id = document.drafts.lookup id := by
  refine ⟨?_, fun draft => document.gathers_of_lookup_drafts, fun operation hmem => ?_,
    fun other hcomponents hsame => ?_⟩
  · rw [← Option.isSome_iff_exists, ← Option.ne_none_iff_isSome, ne_eq,
      Document.lookup_drafts_eq_none_iff, List.eq_nil_iff_forall_not_mem]
    push Not
    constructor
    · rintro ⟨operation, hmem⟩
      obtain ⟨hwalk, hid⟩ := List.mem_filter.mp hmem
      obtain ⟨item, hitem, hdeclared, haction⟩ := Document.mem_crudOperations_iff.mp hwalk
      exact ⟨_, item, _, _, _, hitem, hdeclared, haction, by simpa using hid⟩
    · rintro ⟨path, item, method, operation, action, hitem, hdeclared, haction, hid⟩
      refine ⟨⟨path, method, action, operation⟩, List.mem_filter.mpr ⟨?_, by simpa using hid⟩⟩
      exact Document.mem_crudOperations_iff.mpr ⟨item, hitem, hdeclared, haction⟩
  · obtain ⟨-, -, -, haction⟩ := Document.mem_crudOperations_iff.mp (List.mem_filter.mp hmem).1
    exact haction
  · rw [Document.lookup_drafts, Document.lookup_drafts, hcomponents, hsame]

end CrudUi
