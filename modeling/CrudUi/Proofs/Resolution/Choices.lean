import CrudUi.Proofs.OpenApi.Choices
import CrudUi.Proofs.Resolution.Origins
import CrudUi.Proofs.Walk.SchemaMaps

/-!
# Resolution hands choices on unread

The branches of choices are taken over from a definition, and from the branches of an `allOf`, but
never looked into: resolving a schema without the contents of its choices, where the components are
without them too, gives the resolved schema without them (`Components.resolve_eraseChoices`).
-/

namespace CrudUi

/-! ### Merging -/

namespace Schema

variable (schema acc branch node : Schema)

/-- Whether the later of two choices is taken depends on whether it has branches. -/
theorem eraseBranches_later (first later : List Schema) :
    (if (eraseBranches later).isEmpty then eraseBranches first else eraseBranches later) =
      eraseBranches (if later.isEmpty then first else later) := by
  rw [isEmpty_eraseBranches, apply_ite eraseBranches]

theorem merge_eraseChoices :
    acc.eraseChoices.merge branch.eraseChoices = (acc.merge branch).eraseChoices := by
  rw [eraseChoices_eq acc, eraseChoices_eq branch, eraseChoices_eq (acc.merge branch)]
  simp only [merge, mk.injEq, true_and, and_true]
  -- properties, items and the two choices; the others are kept as they are
  exact ⟨Entries.merge_mapValues eraseChoices acc.properties branch.properties,
    (Option.map_or ..).symm, eraseBranches_later acc.oneOf branch.oneOf,
    eraseBranches_later acc.anyOf branch.anyOf⟩

theorem mergeAll_eraseChoices (branches : List Schema) :
    mergeAll (branches.map eraseChoices) = (mergeAll branches).eraseChoices := by
  induction branches using List.reverseRecOn with
  | nil => rfl
  | append_singleton rest branch ih =>
    rw [List.map_append, List.map_singleton, mergeAll_append_singleton, mergeAll_append_singleton,
      ih, merge_eraseChoices]

theorem withoutAllOf_eraseChoices :
    { schema.eraseChoices with allOf := [] } = eraseChoices { schema with allOf := [] } := by
  rw [eraseChoices_eq schema, eraseChoices_eq { schema with allOf := [] }]
  rfl

theorem withFlagsOf_eraseChoices :
    schema.eraseChoices.withFlagsOf node.eraseChoices = (schema.withFlagsOf node).eraseChoices := by
  rw [eraseChoices_eq schema, eraseChoices_eq node, eraseChoices_eq (schema.withFlagsOf node)]
  rfl

end Schema

/-! ### Resolving -/

/-- A resolved schema without the contents of its choices. -/
def Resolved.eraseChoices (resolved : Resolved) : Resolved where
  schema := resolved.schema.eraseChoices
  chain := resolved.chain

/-- Components without the contents of their choices. -/
def Components.eraseChoices (components : Components) : Components :=
  components.mapSchemas Schema.eraseChoices

namespace Components

theorem follow?_mapSchemas (f : Schema → Schema) (components : Components) (chain : RefChain)
    (target : String) :
    (components.mapSchemas f).follow? chain target =
      (components.follow? chain target).map fun found => (found.1, f found.2) := by
  rw [follow?, follow?]
  cases Reference.schemaName? target with
  | none => rfl
  | some name =>
    have hlookup := Entries.lookup_mapValues f name components.schemas
    by_cases hchain : name ∈ chain
    · simp [hchain]
    · cases hfound : components.schemas.lookup name <;> simp_all [mapSchemas]

/-- Nothing is decided by what stands in a choice on the way. -/
theorem resolve_eraseChoices (components : Components) (schema : Schema) (chain : RefChain) :
    components.eraseChoices.resolve schema.eraseChoices chain =
      (components.resolve schema chain).eraseChoices := by
  induction schema, chain using resolve_induction components with
  | followed schema chain target name definition href hfollow heq ih =>
    have hfollow' : components.eraseChoices.follow? chain target =
        some (name, definition.eraseChoices) := by
      rw [eraseChoices, follow?_mapSchemas, hfollow, Option.map_some]
    rw [heq, resolve_of_follow?_eq_some (schema.reference_eraseChoices.trans href) hfollow', ih]
    simp only [Resolved.eraseChoices, Schema.withFlagsOf_eraseChoices]
  | unfollowed schema chain target href hfollow heq =>
    have hfollow' : components.eraseChoices.follow? chain target = none := by
      rw [eraseChoices, follow?_mapSchemas, hfollow, Option.map_none]
    rw [heq, resolve_of_follow?_eq_none (schema.reference_eraseChoices.trans href) hfollow']
    rfl
  | plain schema chain href hallOf heq =>
    have hallOf' : schema.eraseChoices.allOf = [] := by
      rw [Schema.allOf_eraseChoices, hallOf, List.map_nil]
    rw [heq, resolve_of_allOf_eq_nil (schema.reference_eraseChoices.trans href) hallOf']
    rfl
  | composed schema chain href hallOf heq ih =>
    have hallOf' : schema.eraseChoices.allOf ≠ [] := by
      rwa [Schema.allOf_eraseChoices, ne_eq, List.map_eq_nil_iff]
    have hbranches : (schema.allOf.map Schema.eraseChoices).map
        (fun branch => (components.eraseChoices.resolve branch chain).schema) =
        (schema.allOf.map fun branch => (components.resolve branch chain).schema).map
          Schema.eraseChoices := by
      rw [List.map_map, List.map_map]
      exact List.map_congr_left fun branch hbranch => congrArg Resolved.schema (ih branch hbranch)
    rw [heq, resolve_of_allOf_ne_nil (schema.reference_eraseChoices.trans href) hallOf',
      Schema.allOf_eraseChoices, hbranches, Schema.withoutAllOf_eraseChoices, ← List.map_cons,
      Schema.mergeAll_eraseChoices]
    rfl

theorem resolveNamed_eraseChoices (components : Components) (name : String) :
    components.eraseChoices.resolveNamed name = (components.resolveNamed name).eraseChoices := by
  have hlookup : components.eraseChoices.schemas.lookup name =
      (components.schemas.lookup name).map Schema.eraseChoices :=
    Entries.lookup_mapValues _ _ _
  rw [resolveNamed, resolveNamed, hlookup]
  cases components.schemas.lookup name with
  | none => rfl
  | some definition => exact components.resolve_eraseChoices definition [name]

end Components

end CrudUi
