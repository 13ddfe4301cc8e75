import CrudUi.Proofs.Entries.Merging
import CrudUi.Proofs.Resolution.Origins

/-!
# What a fold of schemas says

A fold has neither a reference nor branches of its own.  Its type, format, values and items are
those of the last schema that sets them, and its choices those of the last schema where there are
any.  A flag is true if it is true in one of the schemas, else false if it is false in one.  Its
required names are those of all schemas, and so are its properties, each with the schema that it has
where it is declared last (`Schema.isFoldOf_mergeAll`).

What a schema with an `allOf` is resolved to is the fold of its own keywords and of its resolved
branches (`Components.resolve_isFoldOf`).

## Main definitions

* `joinFlags` : what several flags say together.
* `Schema.IsFoldOf` : a schema says what several schemas say together.
* `Schema.IsFlag` : a keyword that a resolution joins and hands on as a flag.
-/

namespace CrudUi

/-! ### Flags -/

/-- Several flags are true together if one of them is, else false if one of them is. -/
def joinFlags (flags : List (Option Bool)) : Option Bool :=
  if some true ∈ flags then some true else if some false ∈ flags then some false else none

theorem joinFlags_eq_some_true_iff {flags : List (Option Bool)} :
    joinFlags flags = some true ↔ some true ∈ flags := by
  rw [joinFlags]
  split <;> simp_all

theorem joinFlags_append_singleton (flags : List (Option Bool)) (flag : Option Bool) :
    joinFlags (flags ++ [flag]) = mergeFlag (joinFlags flags) flag := by
  rcases flag with _ | _ | _ <;> grind [joinFlags, mergeFlag]

namespace Schema

/-- A keyword that is joined in a fold, and that holds for the target of a reference as well where
it is true beside it. -/
structure IsFlag (flag : Schema → Option Bool) : Prop where
  empty : flag {} = none
  withoutAllOf : ∀ schema : Schema, flag { schema with allOf := [] } = flag schema
  merge : ∀ acc branch : Schema, flag (acc.merge branch) = mergeFlag (flag acc) (flag branch)
  withFlagsOf : ∀ schema node : Schema,
    flag (schema.withFlagsOf node) = if flag node = some true then some true else flag schema

theorem isFlag_readOnly : IsFlag readOnly :=
  ⟨rfl, fun _ => rfl, fun _ _ => rfl, fun _ _ => rfl⟩

theorem isFlag_writeOnly : IsFlag writeOnly :=
  ⟨rfl, fun _ => rfl, fun _ _ => rfl, fun _ _ => rfl⟩

theorem IsFlag.mergeAll {flag : Schema → Option Bool} (hflag : IsFlag flag)
    (branches : List Schema) : flag (mergeAll branches) = joinFlags (branches.map flag) := by
  induction branches using List.reverseRecOn with
  | nil => exact hflag.empty
  | append_singleton rest branch ih =>
    rw [mergeAll_append_singleton, hflag.merge, ih, List.map_append, List.map_singleton,
      joinFlags_append_singleton]

/-! ### Keywords of a fold -/

/-- If a keyword of a fold is taken from the later schema where that declares it, it is taken from
the last schema that does. -/
theorem mergeAll_eq_getLast? {α : Type} (keyword declared : Schema → Option α)
    (hempty : keyword {} = none)
    (hmerge : ∀ acc branch, keyword (acc.merge branch) = (declared branch).or (keyword acc))
    (branches : List Schema) :
    keyword (mergeAll branches) = (branches.filterMap declared).getLast? := by
  induction branches using List.reverseRecOn with
  | nil => exact hempty
  | append_singleton rest branch ih =>
    rw [mergeAll_append_singleton, hmerge, ih, List.filterMap_append, List.getLast?_append]
    cases hbranch : declared branch <;> simp [hbranch]

theorem mergeAll_eq_getLastD (choice : Schema → List Schema) (hempty : choice {} = [])
    (hmerge : ∀ acc branch, choice (acc.merge branch) =
      if (choice branch).isEmpty then choice acc else choice branch)
    (branches : List Schema) :
    choice (mergeAll branches) = ((branches.map choice).filter (· ≠ [])).getLastD [] := by
  induction branches using List.reverseRecOn with
  | nil => exact hempty
  | append_singleton rest branch ih =>
    rw [mergeAll_append_singleton, hmerge, ih, List.map_append, List.filter_append]
    by_cases hbranch : choice branch = [] <;> simp [hbranch]

theorem mem_mergeAll_iff (names : Schema → List String) (hempty : names {} = [])
    (hmerge : ∀ acc branch name,
      name ∈ names (acc.merge branch) ↔ name ∈ names acc ∨ name ∈ names branch)
    (branches : List Schema) (name : String) :
    name ∈ names (mergeAll branches) ↔ ∃ branch ∈ branches, name ∈ names branch := by
  induction branches using List.reverseRecOn with
  | nil => simp [mergeAll, hempty]
  | append_singleton rest branch ih =>
    rw [mergeAll_append_singleton, hmerge, ih]
    simp [or_and_right, exists_or]

theorem pairwise_required_mergeAll (branches : List Schema) :
    (mergeAll branches).required.Pairwise (· < ·) := by
  induction branches using List.reverseRecOn with
  | nil => exact .nil
  | append_singleton rest branch _ =>
    rw [mergeAll_append_singleton]
    exact Ascending.pairwise_ofList _

theorem nodup_keys_properties_mergeAll (branches : List Schema) :
    (Entries.keys (mergeAll branches).properties).Nodup := by
  induction branches using List.reverseRecOn with
  | nil => exact List.nodup_nil
  | append_singleton rest branch ih =>
    rw [mergeAll_append_singleton]
    exact Entries.nodup_keys_merge branch.properties ih

/-! ### The fold as a whole -/

/-- The schema says what the branches say together, where later ones go before earlier ones.  The
properties of a branch count as the table that they leave behind, which is the list of them where
each name stands once. -/
structure IsFoldOf (folded : Schema) (branches : List Schema) : Prop where
  reference_eq : folded.reference = none
  allOf_eq : folded.allOf = []
  type_eq : folded.type = (branches.filterMap type).getLast?
  format_eq : folded.format = (branches.filterMap format).getLast?
  enumValues_eq : folded.enumValues = (branches.filterMap enumValues).getLast?
  items_eq : folded.items = (branches.filterMap items).getLast?
  oneOf_eq : folded.oneOf = ((branches.map oneOf).filter (· ≠ [])).getLastD []
  anyOf_eq : folded.anyOf = ((branches.map anyOf).filter (· ≠ [])).getLastD []
  readOnly_eq : folded.readOnly = joinFlags (branches.map readOnly)
  writeOnly_eq : folded.writeOnly = joinFlags (branches.map writeOnly)
  pairwise_required : folded.required.Pairwise (· < ·)
  mem_required_iff : ∀ name,
    name ∈ folded.required ↔ ∃ branch ∈ branches, name ∈ branch.required
  nodup_properties : (Entries.keys folded.properties).Nodup
  mem_properties_iff : ∀ name, name ∈ Entries.keys folded.properties ↔
    ∃ branch ∈ branches, name ∈ Entries.keys branch.properties
  lookup_properties : ∀ name, Entries.lookup name folded.properties =
    (branches.filterMap fun branch =>
      Entries.lookup name (Entries.ofList branch.properties)).getLast?

theorem isFoldOf_mergeAll (branches : List Schema) : (mergeAll branches).IsFoldOf branches where
  reference_eq := (Components.reference_mergeAll branches).1
  allOf_eq := (Components.reference_mergeAll branches).2
  type_eq := mergeAll_eq_getLast? type type rfl (fun _ _ => rfl) branches
  format_eq := mergeAll_eq_getLast? format format rfl (fun _ _ => rfl) branches
  enumValues_eq := mergeAll_eq_getLast? enumValues enumValues rfl (fun _ _ => rfl) branches
  items_eq := mergeAll_eq_getLast? items items rfl (fun _ _ => rfl) branches
  oneOf_eq := mergeAll_eq_getLastD oneOf rfl (fun _ _ => rfl) branches
  anyOf_eq := mergeAll_eq_getLastD anyOf rfl (fun _ _ => rfl) branches
  readOnly_eq := isFlag_readOnly.mergeAll branches
  writeOnly_eq := isFlag_writeOnly.mergeAll branches
  pairwise_required := pairwise_required_mergeAll branches
  mem_required_iff := mem_mergeAll_iff required rfl
    (fun _ _ _ => Ascending.mem_ofList.trans List.mem_append) branches
  nodup_properties := nodup_keys_properties_mergeAll branches
  mem_properties_iff := mem_mergeAll_iff (fun schema => Entries.keys schema.properties) rfl
    (fun acc branch => Entries.mem_keys_merge acc.properties branch.properties) branches
  lookup_properties name := mergeAll_eq_getLast?
    (fun schema => Entries.lookup name schema.properties)
    (fun branch => Entries.lookup name (Entries.ofList branch.properties)) rfl
    (fun acc branch => Entries.lookup_merge_ofList acc.properties branch.properties name) branches

end Schema

/-! ### Resolved branches -/

namespace Components

/-- The schemas that branches are resolved to. -/
def resolveAll (components : Components) (branches : List Schema) (chain : RefChain) :
    List Schema :=
  branches.map fun branch => (components.resolve branch chain).schema

/-- What a schema with an `allOf` is resolved to says what its own keywords and its resolved
branches say together, and no name comes onto the chain. -/
theorem resolve_isFoldOf (components : Components) (chain : RefChain) {schema : Schema}
    (href : schema.reference = none) (hallOf : schema.allOf ≠ []) :
    (components.resolve schema chain).schema.IsFoldOf
        ({ schema with allOf := [] } :: components.resolveAll schema.allOf chain) ∧
      (components.resolve schema chain).chain = chain := by
  rw [resolve_of_allOf_ne_nil href hallOf]
  exact ⟨Schema.isFoldOf_mergeAll _, rfl⟩

/-- A record with an identifier. -/
def recordSchema : Schema where
  type := some (.single "object")
  properties := [("id", { type := some (.single "string") }), ("note", {})]
  required := ["note", "id"]

/-- A record whose identifier is a number, with a total. -/
def invoiceSchema : Schema where
  properties := [("total", { readOnly := some true })]
  required := ["total"]
  allOf := [.ofReference "#/components/schemas/Record",
    { properties := [("id", { type := some (.single "integer") })], readOnly := some true },
    { required := ["id"], readOnly := some false }]

/-- Components among which the records of invoices are found. -/
def invoiceComponents : Components where
  schemas := [("Record", recordSchema)]

theorem resolveAll_invoiceSchema :
    invoiceComponents.resolveAll invoiceSchema.allOf [] = [recordSchema,
      { properties := [("id", { type := some (.single "integer") })], readOnly := some true },
      { required := ["id"], readOnly := some false }] := by
  have hfollow : invoiceComponents.follow? [] "#/components/schemas/Record" =
      some ("Record", recordSchema) :=
    follow?_of_lookup (by decide +kernel) List.not_mem_nil rfl
  rw [resolveAll, invoiceSchema, List.map_cons, resolve_of_follow?_eq_some rfl hfollow,
    resolve_of_allOf_eq_nil rfl rfl, List.map_cons, resolve_of_allOf_eq_nil rfl rfl,
    List.map_singleton, resolve_of_allOf_eq_nil rfl rfl]
  rfl

/-- An invoice is an object, with the identifier that it declares last; it is read-only, though the
last branch says that it is not. -/
theorem resolve_isFoldOf_invoice :
    invoiceSchema.reference = none ∧ invoiceSchema.allOf ≠ [] ∧
      (invoiceComponents.resolve invoiceSchema []).schema.type = some (.single "object") ∧
      (invoiceComponents.resolve invoiceSchema []).schema.readOnly = some true ∧
      "note" ∈ (invoiceComponents.resolve invoiceSchema []).schema.required ∧
      Entries.lookup "id" (invoiceComponents.resolve invoiceSchema []).schema.properties =
        some { type := some (.single "integer") } ∧
      (invoiceComponents.resolve invoiceSchema []).chain = [] := by
  have href : invoiceSchema.reference = none := rfl
  have hallOf : invoiceSchema.allOf ≠ [] := List.cons_ne_nil _ _
  obtain ⟨hfold, hchain⟩ := resolve_isFoldOf invoiceComponents [] href hallOf
  rw [resolveAll_invoiceSchema] at hfold
  refine ⟨href, hallOf, hfold.type_eq, hfold.readOnly_eq, ?_, hfold.lookup_properties "id", hchain⟩
  exact (hfold.mem_required_iff "note").mpr ⟨recordSchema, by simp, by decide⟩

end Components

end CrudUi
