import CrudUi.Proofs.Inference.ReferenceNodes
import CrudUi.Proofs.Resolution.Inlining

/-!
# Components by name, by reference and in place

The fields of a component are the same whether it is asked for by its name or by a bare reference,
also where it is missing and where going into its items has no end.  A component that does not lead
back to itself may stand in the place of a reference to it, too.  What the chain holds of components
that a schema does not involve makes no difference (`Components.named_referenced_inlined`).
-/

namespace CrudUi.Components

variable {components : Components} {name target : String}

/-- A component that is missing has no fields. -/
theorem namedFields?_of_lookup_eq_none (hlookup : components.schemas.lookup name = none) :
    components.namedFields? name = some [] := by
  have hresolve : components.resolveNamed name = ⟨.ofReference (Reference.toSchema name), []⟩ := by
    rw [resolveNamed, hlookup]
  rw [namedFields?, hresolve, fieldsOf?_of_isArray_eq_false rfl]
  rfl

/-- A reference and the name that it points to give the same fields. -/
theorem fields?_ofReference (hname : Reference.schemaName? target = some name) :
    components.fields? (.ofReference target) = components.namedFields? name := by
  cases hlookup : components.schemas.lookup name with
  | none =>
    have hfollow : components.follow? [] target = none :=
      follow?_eq_none_iff.mpr (.inr ⟨name, hname, .inl hlookup⟩)
    have hbare : (Schema.ofReference target).IsBare := rfl
    rw [namedFields?_of_lookup_eq_none hlookup, fields?_of_isBare hbare rfl hfollow]
  | some definition =>
    have hfollow : components.follow? [] target = some (name, definition) :=
      follow?_of_lookup hname List.not_mem_nil hlookup
    have hresolve : components.resolve (.ofReference target) [] = components.resolveNamed name := by
      rw [resolve_ofReference_of_follow? hfollow, resolveNamed, hlookup]
      rfl
    refine fieldsOf?_congr (within_resolve components _) (within_resolveNamed components name)
      fun steps => ?_
    rw [hresolve]

/-- A component has the same fields by its name and by a reference; chains that hold the same of the
components that a schema involves resolve it to the same; and a component that does not involve
itself resolves to the same by a reference and in its place. -/
theorem named_referenced_inlined (components : Components) :
    (∀ name target, Reference.schemaName? target = some name →
      components.fields? (.ofReference target) = components.namedFields? name) ∧
    (∀ schema chain chain', components.SameInvolved schema chain chain' →
      (components.resolve schema chain).schema = (components.resolve schema chain').schema) ∧
    ∀ name target definition chain, Reference.schemaName? target = some name →
      components.schemas.lookup name = some definition →
      ¬ components.Involves definition name → name ∉ chain →
      (components.resolve (.ofReference target) chain).schema =
        (components.resolve definition chain).schema :=
  ⟨fun _ _ => fields?_ofReference, fun _ _ _ => resolve_schema_congr,
    fun _ _ _ _ => resolve_ofReference⟩

/-! ### Owners -/

/-- A person, with a name. -/
def personSchema : Schema where
  properties := [("name", { type := some (.single "string") })]

/-- A person who owns something since a day. -/
def ownerSchema : Schema where
  allOf := [.ofReference "#/components/schemas/Person",
    { properties := [("since", { format := some "date" })] }]

/-- Components among which owners are found, and tasks, which are made of themselves. -/
def ownerComponents : Components where
  schemas := [("Owner", ownerSchema), ("Person", personSchema),
    ("Task", { allOf := [.ofReference "#/components/schemas/Task"] })]

theorem eq_of_involves_ownerSchema (h : ownerComponents.Involves ownerSchema name) :
    name = "Person" := by
  have htarget : Reference.schemaName? "#/components/schemas/Person" = some "Person" := by
    decide +kernel
  obtain ⟨part, hpart, hname⟩ := h.exists_mem
    (personSchema :: ownerSchema :: ownerSchema.allOf)
    (by simp [drawsOn_iff, Schema.targetName?, ownerSchema, personSchema, Schema.ofReference,
      htarget, ownerComponents, Entries.lookup])
    (by simp)
  simp only [ownerSchema, List.mem_cons, List.not_mem_nil, or_false] at hpart
  rcases hpart with rfl | rfl | rfl | rfl <;>
    simp_all [Schema.targetName?, personSchema, Schema.ofReference]

/-- Owners are the same by name, by reference and in place, also on the way from a task. -/
theorem named_referenced_inlined_owner :
    Reference.schemaName? "#/components/schemas/Owner" = some "Owner" ∧
      ownerComponents.SameInvolved ownerSchema [] ["Task"] ∧
      ownerComponents.schemas.lookup "Owner" = some ownerSchema ∧
      ¬ ownerComponents.Involves ownerSchema "Owner" ∧ "Owner" ∉ ["Task"] ∧
      ownerComponents.fields? (.ofReference "#/components/schemas/Owner") =
        ownerComponents.namedFields? "Owner" ∧
      (ownerComponents.resolve ownerSchema []).schema =
        (ownerComponents.resolve ownerSchema ["Task"]).schema ∧
      (ownerComponents.resolve (.ofReference "#/components/schemas/Owner") ["Task"]).schema =
        (ownerComponents.resolve ownerSchema ["Task"]).schema := by
  have hname : Reference.schemaName? "#/components/schemas/Owner" = some "Owner" := by
    decide +kernel
  have hsame : ownerComponents.SameInvolved ownerSchema [] ["Task"] := fun name hinvolves => by
    simp [eq_of_involves_ownerSchema hinvolves]
  have hlookup : ownerComponents.schemas.lookup "Owner" = some ownerSchema := rfl
  have hacyclic : ¬ ownerComponents.Involves ownerSchema "Owner" := fun h => by
    simpa using eq_of_involves_ownerSchema h
  have hchain : "Owner" ∉ ["Task"] := by decide
  obtain ⟨hfields, hcongr, hinline⟩ := named_referenced_inlined ownerComponents
  exact ⟨hname, hsame, hlookup, hacyclic, hchain, hfields _ _ hname, hcongr _ _ _ hsame,
    hinline _ _ _ _ hname hlookup hacyclic hchain⟩

end CrudUi.Components
