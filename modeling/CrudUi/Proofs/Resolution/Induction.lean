import CrudUi.OpenApi.Resolution

/-!
# The course of a resolution

A resolution does one of four things with a schema, and `Components.resolve_induction` is the
induction over them: it follows the reference, leaves a reference that cannot be followed alone,
leaves a schema without `allOf` alone, or folds the branches of `allOf` into one.

The chain that is handed back arises from the one given by adding names of components, one for each
reference that is followed (`Components.chain_resolve_induction`).
-/

namespace CrudUi

namespace Components

variable {components : Components}

/-! ### One step -/

section Steps

variable {schema : Schema} {chain : RefChain}

theorem follow?_of_lookup {target name : String} {definition : Schema}
    (hname : Reference.schemaName? target = some name) (hchain : name ∉ chain)
    (hlookup : components.schemas.lookup name = some definition) :
    components.follow? chain target = some (name, definition) := by
  simp [follow?, hname, hchain, hlookup]

theorem resolve_of_follow?_eq_some {target name : String} {definition : Schema}
    (href : schema.reference = some target)
    (hfollow : components.follow? chain target = some (name, definition)) :
    components.resolve schema chain =
      ⟨(components.resolve definition (Ascending.insert name chain)).schema.withFlagsOf schema,
        (components.resolve definition (Ascending.insert name chain)).chain⟩ := by
  rw [resolve]
  split
  · rename_i other hother
    obtain rfl := Option.some.inj (href.symm.trans hother)
    split
    · rename_i found hfound
      obtain ⟨rfl, rfl⟩ := Prod.mk.inj (Option.some.inj (hfollow.symm.trans hfound))
      rfl
    · rename_i hnone
      simp [hfollow] at hnone
  · rename_i hnone
    simp [href] at hnone

theorem resolve_of_follow?_eq_none {target : String} (href : schema.reference = some target)
    (hfollow : components.follow? chain target = none) :
    components.resolve schema chain = ⟨schema, chain⟩ := by
  rw [resolve]
  split
  · rename_i other hother
    obtain rfl := Option.some.inj (href.symm.trans hother)
    split
    · rename_i hfound
      simp [hfollow] at hfound
    · rfl
  · rename_i hnone
    simp [href] at hnone

theorem resolve_of_allOf_eq_nil (href : schema.reference = none) (hallOf : schema.allOf = []) :
    components.resolve schema chain = ⟨schema, chain⟩ := by
  rw [resolve]
  simp [href, hallOf]

theorem resolve_of_allOf_ne_nil (href : schema.reference = none) (hallOf : schema.allOf ≠ []) :
    components.resolve schema chain =
      ⟨.mergeAll ({ schema with allOf := [] } ::
        schema.allOf.map fun branch => (components.resolve branch chain).schema), chain⟩ := by
  rw [resolve]
  simp [href, hallOf]

end Steps

/-- What holds of each course that a resolution can take, given that it holds of the resolutions
that the course goes through, holds of every resolution. -/
theorem resolve_induction (components : Components) {motive : Schema → RefChain → Prop}
    (followed : ∀ schema chain target name definition, schema.reference = some target →
      components.follow? chain target = some (name, definition) →
      components.resolve schema chain =
        ⟨(components.resolve definition (Ascending.insert name chain)).schema.withFlagsOf schema,
          (components.resolve definition (Ascending.insert name chain)).chain⟩ →
      motive definition (Ascending.insert name chain) → motive schema chain)
    (unfollowed : ∀ schema chain target, schema.reference = some target →
      components.follow? chain target = none →
      components.resolve schema chain = ⟨schema, chain⟩ → motive schema chain)
    (plain : ∀ schema chain, schema.reference = none → schema.allOf = [] →
      components.resolve schema chain = ⟨schema, chain⟩ → motive schema chain)
    (composed : ∀ schema chain, schema.reference = none → schema.allOf ≠ [] →
      components.resolve schema chain =
        ⟨.mergeAll ({ schema with allOf := [] } ::
          schema.allOf.map fun branch => (components.resolve branch chain).schema), chain⟩ →
      (∀ branch ∈ schema.allOf, motive branch chain) → motive schema chain)
    (schema : Schema) (chain : RefChain) : motive schema chain := by
  induction schema, chain using resolve.induct components with
  | case1 schema chain target href name definition hfollow ih =>
    exact followed schema chain target name definition href hfollow
      (resolve_of_follow?_eq_some href hfollow) ih
  | case2 schema chain target href hfollow =>
    exact unfollowed schema chain target href hfollow (resolve_of_follow?_eq_none href hfollow)
  | case3 schema chain href hallOf =>
    have hnil := List.isEmpty_iff.mp hallOf
    exact plain schema chain href hnil (resolve_of_allOf_eq_nil href hnil)
  | case4 schema chain href hallOf ih =>
    have hne : schema.allOf ≠ [] := fun hnil => hallOf (List.isEmpty_iff.mpr hnil)
    exact composed schema chain href hne (resolve_of_allOf_ne_nil href hne) ih

/-! ### The chain -/

/-- What adding the name of a component to a chain keeps, a resolution keeps. -/
theorem chain_resolve_induction {motive : RefChain → Prop}
    (hinsert : ∀ {chain name}, name ∈ Entries.keys components.schemas → motive chain →
      motive (Ascending.insert name chain))
    (schema : Schema) {chain : RefChain} (h : motive chain) :
    motive (components.resolve schema chain).chain := by
  induction schema, chain using resolve_induction components with
  | followed schema chain target name definition href hfollow heq ih =>
    obtain ⟨-, -, hlookup⟩ := follow?_eq_some hfollow
    rw [heq]
    exact ih (hinsert (Entries.mem_keys_of_lookup hlookup) h)
  | unfollowed schema chain target href hfollow heq => rwa [heq]
  | plain schema chain href hallOf heq => rwa [heq]
  | composed schema chain href hallOf heq ih => rwa [heq]

theorem subset_chain_resolve (schema : Schema) (chain : RefChain) :
    chain ⊆ (components.resolve schema chain).chain :=
  chain_resolve_induction (motive := fun other => chain ⊆ other)
    (fun _ h _ hname => Ascending.mem_insert.mpr (.inr (h hname))) schema (List.Subset.refl _)

theorem chain_resolve_subset_keys (schema : Schema) {chain : RefChain}
    (h : chain ⊆ Entries.keys components.schemas) :
    (components.resolve schema chain).chain ⊆ Entries.keys components.schemas :=
  chain_resolve_induction (motive := fun other => other ⊆ Entries.keys components.schemas)
    (fun hkey h _ hname => (Ascending.mem_insert.mp hname).elim (· ▸ hkey) (h ·)) schema h

theorem pairwise_chain_resolve (schema : Schema) {chain : RefChain}
    (h : chain.Pairwise (· < ·)) :
    (components.resolve schema chain).chain.Pairwise (· < ·) :=
  chain_resolve_induction (motive := fun other => other.Pairwise (· < ·))
    (fun _ h => Ascending.pairwise_insert _ h) schema h

end Components

end CrudUi
