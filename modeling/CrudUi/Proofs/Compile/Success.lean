import CrudUi.Proofs.Compile.Entities
import CrudUi.Proofs.Inference.Unwrapping
import CrudUi.Proofs.Walk.Grouping

/-!
# When a document is compiled

A document of version 3 is compiled unless the fields of some draft have no end: those of the
component that names it, or those of a payload that is asked for after payloads without fields
(`Draft.Endless`), and then compiling it has no end either (`Document.compile_eq_endless_iff`).
Fields have no end exactly on a course through the items of lists that goes round, and such a course
goes through items that hold an `allOf` in place
(`Document.exists_compile_eq_ok_iff_forall_not_endless`).

## Main definitions

* `Draft.Endless` : asking for the fields of a draft has no end.
-/

namespace CrudUi

namespace Draft

variable {components : Components}

/-- Asking for the fields of a draft has no end: the component of its name goes round, or it has no
fields and one of the payloads goes round, all payloads before it being without fields. -/
def Endless (draft : Draft) (components : Components) : Prop :=
  (∃ name, draft.schemaName = some name ∧ components.Circular (components.resolveNamed name)) ∨
    ((∀ name, draft.schemaName = some name → components.namedFields? name = some []) ∧
      ∃ before schema after, draft.candidates = before ++ schema :: after ∧
        (∀ other ∈ before, components.fields? other = some []) ∧
        components.Circular (components.resolve schema []))

theorem candidateFields?_cons_of_nil {schema : Schema} (h : components.fields? schema = some [])
    (rest : List Schema) :
    candidateFields? components (schema :: rest) = candidateFields? components rest := by
  simp [candidateFields?, h]

/-- The payloads have no end at the first one that goes round, if none before it has fields. -/
theorem candidateFields?_eq_none_iff {schemas : List Schema} :
    candidateFields? components schemas = none ↔
      ∃ before schema after, schemas = before ++ schema :: after ∧
        (∀ other ∈ before, components.fields? other = some []) ∧
        components.Circular (components.resolve schema []) := by
  constructor
  · intro h
    induction schemas with
    | nil => simp [candidateFields?] at h
    | cons schema rest ih =>
      cases hfields : components.fields? schema with
      | none =>
        exact ⟨[], schema, rest, rfl, by simp, Components.fields?_eq_none_iff.mp hfields⟩
      | some fields =>
        cases fields with
        | cons field fields => simp [candidateFields?, hfields] at h
        | nil =>
          rw [candidateFields?_cons_of_nil hfields] at h
          obtain ⟨before, other, after, rfl, hbefore, hround⟩ := ih h
          exact ⟨schema :: before, other, after, rfl,
            List.forall_mem_cons.mpr ⟨hfields, hbefore⟩, hround⟩
  · rintro ⟨before, schema, after, rfl, hbefore, hround⟩
    induction before with
    | nil =>
      have hnone := Components.fields?_eq_none_iff.mpr hround
      simp [candidateFields?, hnone]
    | cons other before ih =>
      obtain ⟨hother, hbefore⟩ := List.forall_mem_cons.mp hbefore
      rw [List.cons_append, candidateFields?_cons_of_nil hother, ih hbefore]

theorem fields?_eq_none_iff {draft : Draft} :
    draft.fields? components = none ↔ draft.Endless components := by
  rw [Endless, ← candidateFields?_eq_none_iff]
  cases hname : draft.schemaName with
  | none => simp [fields?, hname]
  | some name =>
    simp only [Option.some.injEq, exists_eq_left', forall_eq',
      ← Components.namedFields?_eq_none_iff]
    cases hfields : components.namedFields? name with
    | none => simp [fields?, hname, hfields]
    | some fields => cases fields <;> simp [fields?, hname, hfields]

/-- From a draft an entity is made, unless it is endless. -/
theorem eq_endless_of_build {draft : Draft} {reason : NoResult CompileError}
    (h : draft.build components = .error reason) : reason = .endless := by
  rw [build] at h
  split at h <;> cases h
  rfl

end Draft

namespace Document

/-- A document is compiled exactly if its version is one of version 3 and no draft of it is
endless; fields have no end exactly on courses that go round, and these go through items that hold
an `allOf` in place. -/
theorem exists_compile_eq_ok_iff_forall_not_endless (document : Document)
    (components : Components) (schema : Schema) (name : String) :
    ((∃ ui, document.compile = .ok ui) ↔
      (∃ version, document.version? = some version ∧ ['3', '.'] <+: version.toList) ∧
        ∀ entry ∈ document.drafts, ¬ entry.2.Endless document.components) ∧
    ((∃ fields, components.fields? schema = some fields) ↔
      ¬ components.Circular (components.resolve schema [])) ∧
    ((∃ fields, components.namedFields? name = some fields) ↔
      ¬ components.Circular (components.resolveNamed name)) ∧
    ∀ resolved, components.Circular resolved →
      ∃ list items, Relation.ReflTransGen components.Enters resolved list ∧
        list.schema.items = some items ∧ items.IsComposed := by
  refine ⟨?_, ?_, ?_, fun resolved h => h.exists_composed_items⟩
  · rw [exists_compile_eq_ok_iff, checkVersion_eq_ok_iff]
    simp only [← Draft.fields?_eq_none_iff, ← Option.ne_none_iff_exists', ne_eq]
  · rw [← Components.fields?_eq_none_iff, ← ne_eq, Option.ne_none_iff_exists']
  · rw [← Components.namedFields?_eq_none_iff, ← ne_eq, Option.ne_none_iff_exists']

/-- If the version is right, there is a UI schema or compiling has no end. -/
theorem compile_eq_endless_of_ne_ok {document : Document}
    (hversion : document.checkVersion = .ok ())
    (h : ∀ ui, document.compile ≠ .ok ui) : document.compile = .error .endless := by
  rw [compile, hversion] at h ⊢
  cases hentities : document.drafts.mapM fun entry => (do
      return (entry.1, ← entry.2.build document.components) :
        Except (NoResult CompileError) (String × Entity)) with
  | ok entities => exact absurd (by rw [hentities]; rfl) (h { entities })
  | error reason =>
    obtain ⟨entry, -, hentry⟩ := exists_of_mapM_eq_error hentities
    obtain rfl : reason = .endless := by
      cases hbuild : entry.2.build document.components with
      | ok entity => rw [hbuild] at hentry; cases hentry
      | error found =>
        rw [hbuild] at hentry
        exact Except.error.inj hentry ▸ Draft.eq_endless_of_build hbuild
    rfl

/-- Compiling has no end exactly if the version is right and some draft is endless. -/
theorem compile_eq_endless_iff {document : Document} :
    document.compile = .error .endless ↔ document.checkVersion = .ok () ∧
      ∃ entry ∈ document.drafts, entry.2.Endless document.components := by
  constructor
  · intro h
    have hversion : document.checkVersion = .ok () := by
      cases hversion : document.checkVersion with
      | ok => rfl
      | error error =>
        rw [compile, hversion] at h
        cases h
    refine ⟨hversion, by_contra fun hends => ?_⟩
    obtain ⟨ui, hui⟩ := exists_compile_eq_ok_iff.mpr ⟨hversion, fun entry hentry => by
      rw [← Option.ne_none_iff_exists', ne_eq, Draft.fields?_eq_none_iff]
      exact fun hendless => hends ⟨entry, hentry, hendless⟩⟩
    rw [h] at hui
    cases hui
  · rintro ⟨hversion, entry, hentry, hendless⟩
    refine compile_eq_endless_of_ne_ok hversion fun ui hui => ?_
    obtain ⟨fields, hfields⟩ := (exists_compile_eq_ok_iff.mp ⟨ui, hui⟩).2 entry hentry
    rw [Draft.fields?_eq_none_iff.mpr hendless] at hfields
    cases hfields

/-! ### A list of trees -/

/-- A list whose items fold the component `Tree`. -/
def treeList : Schema where
  type := some (.single "array")
  items := some { allOf := [.ofReference "#/components/schemas/Tree"] }

/-- Two components for lists of trees: the trees are lists of trees as well. -/
def treeComponents : Components where
  schemas := [("Forest", treeList), ("Tree", treeList)]

/-- A document that offers the forest under one path. -/
def grove : Document where
  openapi := some (.string "3.0.0")
  paths := [("/forests", { get := some {
    responses := [("200", .inline { content := [("application/json",
      { schema := some (.ofReference "#/components/schemas/Forest") })] })] } })]
  components := treeComponents

theorem follow?_tree :
    treeComponents.follow? ["Forest"] "#/components/schemas/Tree" = some ("Tree", treeList) :=
  Components.follow?_of_lookup (by decide +kernel) (by decide) rfl

/-- The items of the list fold into the list again, and the chain is the same. -/
theorem enters_treeList :
    treeComponents.Enters ⟨treeList, ["Forest"]⟩ ⟨treeList, ["Forest"]⟩ := by
  have hlist : ∀ chain, treeComponents.resolve treeList chain = ⟨treeList, chain⟩ := fun chain =>
    Components.resolve_of_allOf_eq_nil rfl rfl
  have hbranch := @Components.resolve_of_follow?_eq_some treeComponents
    (.ofReference "#/components/schemas/Tree") ["Forest"] _ _ _ rfl follow?_tree
  refine Components.enters_iff.mpr ⟨by decide, _, rfl, ?_⟩
  rw [Components.resolve_of_allOf_ne_nil rfl (by simp)]
  simp only [List.map_cons, List.map_nil, hbranch, hlist]
  rfl

theorem circular_forest : treeComponents.Circular (treeComponents.resolveNamed "Forest") := by
  have hforest : treeComponents.resolveNamed "Forest" = ⟨treeList, ["Forest"]⟩ :=
    Components.resolve_of_allOf_eq_nil rfl rfl
  rw [hforest]
  exact ⟨_, .refl, .single enters_treeList⟩

theorem schemaName_lookup_drafts_grove :
    (grove.drafts.lookup "Forest").map Draft.schemaName = some (some "Forest") := by
  decide +kernel

theorem compile_grove : grove.compile = .error .endless := by
  obtain ⟨draft, hdraft, hname⟩ := Option.map_eq_some_iff.mp schemaName_lookup_drafts_grove
  exact compile_eq_endless_iff.mpr ⟨checkVersion_eq_ok_iff.mpr ⟨"3.0.0", rfl, by decide⟩, _,
    Entries.mem_of_lookup hdraft, .inl ⟨"Forest", hname, circular_forest⟩⟩

/-- The version is right, and still the document is not compiled. -/
theorem compile_grove_ne_ok :
    (∃ version, grove.version? = some version ∧ ['3', '.'] <+: version.toList) ∧
      ∀ ui, grove.compile ≠ .ok ui := by
  refine ⟨⟨"3.0.0", rfl, by decide⟩, fun ui hui => ?_⟩
  rw [compile_grove] at hui
  cases hui

end Document

end CrudUi
