import CrudUi.Proofs.Resolution.Origins

/-!
# Components that a schema leads to

A schema leads to its items, its properties and the branches of its `allOf`, and its reference leads
to the definition of a component; from these it goes on.  The names met on the way are all that a
resolution, and whatever is resolved inside its result, asks the components for.  So two tables of
components that hold the same under these names resolve the schema to the same
(`Components.AgreesFrom.resolve_eq`), and agree again on everything inside the result
(`Components.AgreesFrom.of_holds_resolve`).

## Main definitions

* `Components.Leads` : one step from a schema to a schema in it, or to the definition it refers to.
* `Components.Reaches` : a component is asked for by its name on the way from a schema.
* `Components.AgreesFrom` : two tables hold the same under all these names.
-/

namespace CrudUi

/-- The name of the component that the reference of a schema points to. -/
def Schema.targetName? (schema : Schema) : Option String :=
  schema.reference.bind Reference.schemaName?

theorem Schema.targetName?_of_reference {schema : Schema} {target : String}
    (href : schema.reference = some target) :
    schema.targetName? = Reference.schemaName? target := by
  rw [targetName?, href, Option.bind_some]

/-- The part is the schema of the items, or of a property. -/
def Schema.Holds (schema part : Schema) : Prop :=
  schema.items = some part ∨ ∃ name, (name, part) ∈ schema.properties

theorem Schema.inherited_holds (part : Schema) : Inherited (·.Holds part) where
  not_empty := by simp [Holds]
  of_withoutAllOf _ h := h
  of_merge acc branch h := by
    rcases h with h | ⟨name, h⟩
    · exact ((Schema.inherited_items part).of_merge acc branch h).imp .inl .inl
    · exact (Entries.mem_of_mem_merge h).imp (fun h => .inr ⟨name, h⟩) fun h => .inr ⟨name, h⟩
  of_withFlagsOf _ _ h := .inl h

namespace Components

/-! ### Reaching a component -/

/-- A schema leads to what stands in it, but for the branches of a choice, and its reference to the
definition of the component that it names. -/
inductive Leads (components : Components) : Schema → Schema → Prop
  | branch {schema branch : Schema} (hbranch : branch ∈ schema.allOf) :
      Leads components schema branch
  | held {schema part : Schema} (hpart : schema.Holds part) : Leads components schema part
  | definition {schema definition : Schema} {name : String}
      (hname : schema.targetName? = some name)
      (hlookup : components.schemas.lookup name = some definition) :
      Leads components schema definition

/-- On the way from a schema, a component is asked for by its name, whether it is there or not. -/
def Reaches (components : Components) (schema : Schema) (name : String) : Prop :=
  ∃ part, Relation.ReflTransGen components.Leads schema part ∧ part.targetName? = some name

/-- Both tables hold the same, or nothing, under every name that is reached from the schema. -/
def AgreesFrom (components components' : Components) (schema : Schema) : Prop :=
  ∀ name, components.Reaches schema name →
    components'.schemas.lookup name = components.schemas.lookup name

variable {components components' : Components} {schema part : Schema}

theorem leads_iff : components.Leads schema part ↔ part ∈ schema.allOf ∨ schema.Holds part ∨
    ∃ name, schema.targetName? = some name ∧ components.schemas.lookup name = some part := by
  constructor
  · rintro (hbranch | hpart | ⟨hname, hlookup⟩)
    · exact .inl hbranch
    · exact .inr (.inl hpart)
    · exact .inr (.inr ⟨_, hname, hlookup⟩)
  · rintro (hbranch | hpart | ⟨name, hname, hlookup⟩)
    · exact .branch hbranch
    · exact .held hpart
    · exact .definition hname hlookup

/-- If nothing leads out of some schemas, only the names that they refer to are reached. -/
theorem Reaches.exists_mem {name : String} (h : components.Reaches schema name)
    (parts : List Schema)
    (hclosed : ∀ part ∈ parts, ∀ next, components.Leads part next → next ∈ parts)
    (hschema : schema ∈ parts) : ∃ part ∈ parts, part.targetName? = some name := by
  obtain ⟨last, hreach, hname⟩ := h
  have hlast : last ∈ parts := keeps_of_reflTransGen (· ∈ parts)
    (fun _ _ hlead hmem => hclosed _ hmem _ hlead) hreach hschema
  exact ⟨last, hlast, hname⟩

/-- What a resolution goes on with is led to. -/
theorem GoesOn.leads {inner outer : Schema × RefChain} (h : components.GoesOn inner outer) :
    components.Leads outer.1 inner.1 := by
  cases h with
  | follow href hfollow =>
    obtain ⟨hname, -, hlookup⟩ := follow?_eq_some hfollow
    exact .definition ((Schema.targetName?_of_reference href).trans hname) hlookup
  | branch href hbranch => exact .branch hbranch

/-- What a resolved schema holds has been held by a schema on the way. -/
theorem leads_of_holds_resolve {chain : RefChain}
    (h : (components.resolve schema chain).schema.Holds part) :
    Relation.ReflTransGen components.Leads schema part := by
  obtain ⟨origin, hreach, hpart⟩ := exists_goesOn_of_resolve (Schema.inherited_holds part) h
  exact (hreach.lift Prod.fst fun _ _ hgoesOn => GoesOn.leads hgoesOn).tail (.held hpart)

namespace AgreesFrom

theorem of_leads (h : components.AgreesFrom components' schema)
    (hlead : Relation.ReflTransGen components.Leads schema part) :
    components.AgreesFrom components' part :=
  fun name ⟨last, hreach, hname⟩ => h name ⟨last, hlead.trans hreach, hname⟩

theorem of_holds_resolve (h : components.AgreesFrom components' schema) {chain : RefChain}
    (hpart : (components.resolve schema chain).schema.Holds part) :
    components.AgreesFrom components' part :=
  h.of_leads (leads_of_holds_resolve hpart)

theorem follow?_eq (h : components.AgreesFrom components' schema) {target : String}
    (href : schema.reference = some target) (chain : RefChain) :
    components'.follow? chain target = components.follow? chain target := by
  rw [Components.follow?, Components.follow?]
  cases hname : Reference.schemaName? target with
  | none => rfl
  | some name =>
    have hlookup := h name ⟨schema, .refl, (Schema.targetName?_of_reference href).trans hname⟩
    simp only [Option.bind_eq_bind, Option.bind_some, hlookup]

/-- A resolution asks for no component that is not reached. -/
theorem resolve_eq (h : components.AgreesFrom components' schema) (chain : RefChain) :
    components'.resolve schema chain = components.resolve schema chain := by
  induction schema, chain using resolve_induction components with
  | followed schema chain target name definition href hfollow heq ih =>
    have hfollow' := (h.follow?_eq href chain).trans hfollow
    have hdefinition := ih (h.of_leads (.single (GoesOn.leads (.follow href hfollow))))
    rw [heq, resolve_of_follow?_eq_some href hfollow', hdefinition]
  | unfollowed schema chain target href hfollow heq =>
    rw [heq, resolve_of_follow?_eq_none href ((h.follow?_eq href chain).trans hfollow)]
  | plain schema chain href hallOf heq => rw [heq, resolve_of_allOf_eq_nil href hallOf]
  | composed schema chain href hallOf heq ih =>
    have hbranches : (schema.allOf.map fun branch => (components'.resolve branch chain).schema) =
        schema.allOf.map fun branch => (components.resolve branch chain).schema :=
      List.map_congr_left fun branch hbranch => by
        rw [ih branch hbranch (h.of_leads (.single (.branch hbranch)))]
    rw [heq, resolve_of_allOf_ne_nil href hallOf, hbranches]

end AgreesFrom

end Components

end CrudUi
