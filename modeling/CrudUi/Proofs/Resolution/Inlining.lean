import CrudUi.Proofs.Resolution.Reachability

/-!
# Definitions in the place of references

A resolution depends on the chain that it was reached through, but only on the names of the
components that it can come to: those that references and branches of `allOf` lead to.  Chains that
hold the same of these names resolve a schema to the same (`Components.resolve_schema_congr`).  So
the name that a reference puts on the chain makes no difference, unless the component leads back to
itself, and the reference resolves to what its definition does in its place
(`Components.resolve_ofReference`).

## Main definitions

* `Components.DrawsOn` : one step from a schema along a reference or to a branch of `allOf`.
* `Components.Involves` : a component is come to by such steps.
-/

namespace CrudUi

theorem Schema.withFlagsOf_ofReference (schema : Schema) (target : String) :
    schema.withFlagsOf (.ofReference target) = schema := by
  cases schema
  simp [withFlagsOf, ofReference]

namespace Components

variable {components : Components} {schema part definition : Schema} {chain chain' : RefChain}
  {name target : String}

/-- A schema draws on the branches of its `allOf`, and on the definition of the component that its
reference names. -/
inductive DrawsOn (components : Components) : Schema → Schema → Prop
  | branch {schema branch : Schema} (hbranch : branch ∈ schema.allOf) :
      DrawsOn components schema branch
  | definition {schema definition : Schema} {name : String}
      (hname : schema.targetName? = some name)
      (hlookup : components.schemas.lookup name = some definition) :
      DrawsOn components schema definition

theorem drawsOn_iff : components.DrawsOn schema part ↔ part ∈ schema.allOf ∨
    ∃ name, schema.targetName? = some name ∧ components.schemas.lookup name = some part := by
  constructor
  · rintro (hbranch | ⟨hname, hlookup⟩)
    · exact .inl hbranch
    · exact .inr ⟨_, hname, hlookup⟩
  · rintro (hbranch | ⟨name, hname, hlookup⟩)
    · exact .branch hbranch
    · exact .definition hname hlookup

/-- What a resolution goes on with is drawn on. -/
theorem GoesOn.drawsOn {inner outer : Schema × RefChain} (h : components.GoesOn inner outer) :
    components.DrawsOn outer.1 inner.1 := by
  cases h with
  | follow href hfollow =>
    obtain ⟨hname, -, hlookup⟩ := follow?_eq_some hfollow
    exact .definition ((Schema.targetName?_of_reference href).trans hname) hlookup
  | branch href hbranch => exact .branch hbranch

/-- The component of a name is referred to by a schema that the given one draws on, directly or
through others. -/
def Involves (components : Components) (schema : Schema) (name : String) : Prop :=
  name ∈ Entries.keys components.schemas ∧
    ∃ part, Relation.ReflTransGen components.DrawsOn schema part ∧ part.targetName? = some name

theorem Involves.of_drawsOn (h : components.Involves part name)
    (hdraws : components.DrawsOn schema part) : components.Involves schema name := by
  obtain ⟨hkey, last, hreach, hname⟩ := h
  exact ⟨hkey, last, .head hdraws hreach, hname⟩

/-- If some schemas draw on no others, only components that they refer to are involved. -/
theorem Involves.exists_mem (h : components.Involves schema name) (parts : List Schema)
    (hclosed : ∀ part ∈ parts, ∀ next, components.DrawsOn part next → next ∈ parts)
    (hschema : schema ∈ parts) : ∃ part ∈ parts, part.targetName? = some name := by
  obtain ⟨-, last, hreach, hname⟩ := h
  have hlast : last ∈ parts := keeps_of_reflTransGen (· ∈ parts)
    (fun _ _ hdraws hmem => hclosed _ hmem _ hdraws) hreach hschema
  exact ⟨last, hlast, hname⟩

/-- The two chains hold the same of the components that are involved. -/
def SameInvolved (components : Components) (schema : Schema) (chain chain' : RefChain) : Prop :=
  ∀ name, components.Involves schema name → (name ∈ chain ↔ name ∈ chain')

/-! ### Chains -/

namespace SameInvolved

theorem of_drawsOn (h : components.SameInvolved schema chain chain')
    (hdraws : components.DrawsOn schema part) : components.SameInvolved part chain chain' :=
  fun name hname => h name (hname.of_drawsOn hdraws)

theorem insert (h : components.SameInvolved schema chain chain') (name : String) :
    components.SameInvolved schema (Ascending.insert name chain) (Ascending.insert name chain') :=
  fun other hother => by rw [Ascending.mem_insert, Ascending.mem_insert, h other hother]

theorem follow?_eq (h : components.SameInvolved schema chain chain')
    (href : schema.reference = some target) :
    components.follow? chain' target = components.follow? chain target := by
  rw [follow?, follow?]
  cases hname : Reference.schemaName? target with
  | none => rfl
  | some name =>
    by_cases hkey : name ∈ Entries.keys components.schemas
    · have hinvolves : components.Involves schema name :=
        ⟨hkey, schema, .refl, (Schema.targetName?_of_reference href).trans hname⟩
      simp [h name hinvolves]
    · simp [Entries.lookup_eq_none_iff.mpr hkey]

end SameInvolved

/-- Only the names of components that are involved matter on a chain. -/
theorem resolve_schema_congr (h : components.SameInvolved schema chain chain') :
    (components.resolve schema chain).schema = (components.resolve schema chain').schema := by
  induction schema, chain using resolve_induction components generalizing chain' with
  | followed schema chain target name definition href hfollow heq ih =>
    have hdraws : components.DrawsOn schema definition := GoesOn.drawsOn (.follow href hfollow)
    -- Both chains take on the name that is followed, so they still agree.
    have hdefinition := ih ((h.of_drawsOn hdraws).insert name)
    rw [heq, resolve_of_follow?_eq_some href ((h.follow?_eq href).trans hfollow), hdefinition]
  | unfollowed schema chain target href hfollow heq =>
    rw [heq, resolve_of_follow?_eq_none href ((h.follow?_eq href).trans hfollow)]
  | plain schema chain href hallOf heq => rw [heq, resolve_of_allOf_eq_nil href hallOf]
  | composed schema chain href hallOf heq ih =>
    have hbranches : (schema.allOf.map fun branch => (components.resolve branch chain).schema) =
        schema.allOf.map fun branch => (components.resolve branch chain').schema :=
      List.map_congr_left fun branch hbranch => ih branch hbranch (h.of_drawsOn (.branch hbranch))
    rw [heq, resolve_of_allOf_ne_nil href hallOf, hbranches]

/-! ### References -/

/-- A bare reference that is followed hands on what its target is resolved to. -/
theorem resolve_ofReference_of_follow? (hfollow : components.follow? chain target =
    some (name, definition)) :
    components.resolve (.ofReference target) chain =
      components.resolve definition (Ascending.insert name chain) := by
  have href : (Schema.ofReference target).reference = some target := rfl
  rw [resolve_of_follow?_eq_some href hfollow, Schema.withFlagsOf_ofReference]

/-- Unless a component leads back to itself, a reference to it resolves to what its definition does
in its place. -/
theorem resolve_ofReference (hname : Reference.schemaName? target = some name)
    (hlookup : components.schemas.lookup name = some definition)
    (hacyclic : ¬ components.Involves definition name) (hchain : name ∉ chain) :
    (components.resolve (.ofReference target) chain).schema =
      (components.resolve definition chain).schema := by
  rw [resolve_ofReference_of_follow? (follow?_of_lookup hname hchain hlookup)]
  refine resolve_schema_congr fun other hother => ?_
  have hne : other ≠ name := fun heq => hacyclic (heq ▸ hother)
  rw [Ascending.mem_insert, or_iff_right hne]

end Components

end CrudUi
