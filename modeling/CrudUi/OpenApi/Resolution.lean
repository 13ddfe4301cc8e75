import CrudUi.Ascending
import CrudUi.OpenApi.Document

/-!
# Resolution of schemas

A reference to a component is replaced by its definition and the branches of `allOf` are folded
into one schema.  A resolution carries the names of the components that it was reached through;
a reference back to one of them is left alone, like a reference that points nowhere.  Branches of
one `allOf` do not see each other's names.

The resolution ends because every reference that is followed adds the name of a component to the
chain, and everything else goes to a smaller schema.

## Main definitions

* `Schema.merge` : the fold of one branch into the schema of those before it.
* `Components.resolve` : the resolution of a schema that was reached through a chain of names.
* `Components.resolveNamed` : the resolution of a component.
-/

namespace CrudUi

/-! ### Merging -/

/-- A flag is true if either side says so, else what the earlier side says, else the later. -/
def mergeFlag (acc branch : Option Bool) : Option Bool :=
  if acc = some true ∨ branch = some true then some true else acc.or branch

/-- The later of two lists, unless it is empty. -/
private def laterIfAny {α : Type} (acc branch : List α) : List α :=
  if branch.isEmpty then acc else branch

/-- Folds a branch into an accumulator: a keyword that the branch sets replaces the earlier one,
flags are joined, required names united, and properties written over those of the same name.
The branch's own reference and branches are not taken over. -/
def Schema.merge (acc branch : Schema) : Schema where
  reference := acc.reference
  type := branch.type.or acc.type
  format := branch.format.or acc.format
  enumValues := branch.enumValues.or acc.enumValues
  properties := Entries.merge acc.properties branch.properties
  required := Ascending.ofList (acc.required ++ branch.required)
  items := branch.items.or acc.items
  allOf := acc.allOf
  oneOf := laterIfAny acc.oneOf branch.oneOf
  anyOf := laterIfAny acc.anyOf branch.anyOf
  readOnly := mergeFlag acc.readOnly branch.readOnly
  writeOnly := mergeFlag acc.writeOnly branch.writeOnly

/-- Folds branches into one schema, from the first to the last. -/
def Schema.mergeAll (branches : List Schema) : Schema :=
  branches.foldl Schema.merge {}

/-- The flags that stand beside a reference hold for its target as well. -/
def Schema.withFlagsOf (schema node : Schema) : Schema :=
  { schema with
    readOnly := if node.readOnly = some true then some true else schema.readOnly
    writeOnly := if node.writeOnly = some true then some true else schema.writeOnly }

/-! ### Chains -/

/-- The names of the components that a resolution was reached through, ascending. -/
abbrev RefChain := List String

/-- A resolved schema, and the chain with which to go on into it. -/
structure Resolved where
  schema : Schema
  chain : RefChain
  deriving DecidableEq, Repr

namespace Components

/-- The component that a reference leads to: it is there, and not on the chain. -/
def follow? (components : Components) (chain : RefChain) (target : String) :
    Option (String × Schema) := do
  let name ← Reference.schemaName? target
  if name ∈ chain then none
  else return (name, ← components.schemas.lookup name)

/-- The number of components that are not on a chain. -/
def fresh (components : Components) (chain : RefChain) : Nat :=
  (components.schemas.keys.filter fun name => name ∉ chain).length

theorem follow?_eq_some {components : Components} {chain : RefChain} {target name : String}
    {schema : Schema} (h : components.follow? chain target = some (name, schema)) :
    Reference.schemaName? target = some name ∧ name ∉ chain ∧
      components.schemas.lookup name = some schema := by
  simp only [follow?, Option.bind_eq_bind, Option.bind_eq_some_iff] at h
  obtain ⟨found, hname, h⟩ := h
  split at h
  · simp at h
  · rename_i hchain
    simp only [Option.bind_eq_some_iff, Option.pure_def, Option.some.injEq, Prod.mk.injEq] at h
    obtain ⟨schema', hlookup, rfl, rfl⟩ := h
    exact ⟨hname, hchain, hlookup⟩

theorem fresh_insert_lt {components : Components} {chain : RefChain} {name : String}
    (hkey : name ∈ components.schemas.keys) (hchain : name ∉ chain) :
    components.fresh (Ascending.insert name chain) < components.fresh chain := by
  unfold fresh
  generalize components.schemas.keys = keys at hkey
  have hle : ∀ names : List String,
      (names.filter fun other => other ∉ Ascending.insert name chain).length ≤
        (names.filter fun other => other ∉ chain).length := by
    intro names
    induction names with
    | nil => simp
    | cons other rest ih => grind [Ascending.mem_insert]
  induction keys with
  | nil => simp at hkey
  | cons other rest ih =>
    have := hle rest
    have := @Ascending.mem_insert name
    grind

end Components

theorem Schema.size_le_sizeOfList {schema : Schema} {schemas : List Schema}
    (h : schema ∈ schemas) : schema.size ≤ Schema.sizeOfList schemas := by
  induction schemas with
  | nil => simp at h
  | cons first rest ih =>
    rcases List.mem_cons.1 h with rfl | h
    · simp [Schema.sizeOfList]
    · have := ih h
      simp [Schema.sizeOfList]
      omega

theorem Schema.size_lt_of_mem_allOf {schema branch : Schema} (h : branch ∈ schema.allOf) :
    branch.size < schema.size := by
  have := Schema.size_le_sizeOfList h
  cases schema
  simp only [Schema.size] at this ⊢
  omega

namespace Components

/-! ### Resolving -/

/-- Resolves a schema that was reached through a chain of names. -/
def resolve (components : Components) (schema : Schema) (chain : RefChain) : Resolved :=
  match schema.reference with
  | some target =>
    match _h : components.follow? chain target with
    | some (name, definition) =>
      let resolved := resolve components definition (Ascending.insert name chain)
      ⟨resolved.schema.withFlagsOf schema, resolved.chain⟩
    | none => ⟨schema, chain⟩
  | none =>
    if schema.allOf.isEmpty then ⟨schema, chain⟩
    else
      let branches := schema.allOf.map fun branch => (resolve components branch chain).schema
      ⟨.mergeAll ({ schema with allOf := [] } :: branches), chain⟩
termination_by (components.fresh chain, schema.size)
decreasing_by
  · have hf := follow?_eq_some _h
    exact Prod.Lex.left _ _ (fresh_insert_lt (Entries.mem_keys_of_lookup hf.2.2) hf.2.1)
  · exact Prod.Lex.right _ (Schema.size_lt_of_mem_allOf (by assumption))

/-- Resolves the component of a name.  Without one, the result is a bare reference to it. -/
def resolveNamed (components : Components) (name : String) : Resolved :=
  match components.schemas.lookup name with
  | some definition => components.resolve definition [name]
  | none => ⟨.ofReference (Reference.toSchema name), []⟩

end Components

end CrudUi
