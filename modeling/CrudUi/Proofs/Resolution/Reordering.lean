import CrudUi.Inference.Fields
import CrudUi.Proofs.OpenApi.Reordering
import CrudUi.Proofs.Resolution.Induction

/-!
# Resolution does not read the order of declarations

Reordered schemas are resolved to reordered schemas, along the same chain, if the components are
reordered as well (`Components.Reordered.resolve`).  Merging writes properties over others by their
names and sorts the required names, so it keeps what is reordered (`Schema.Reordered.merge`).
-/

namespace CrudUi

/-! ### Merging -/

namespace Schema

variable {schema schema' acc acc' branch branch' : Schema}

/-- The later of two lists of schemas, unless it is empty. -/
theorem forall₂_laterIfAny {related : Schema → Schema → Prop}
    {first first' later later' : List Schema} (hfirst : List.Forall₂ related first first')
    (hlater : List.Forall₂ related later later') :
    List.Forall₂ related (if later.isEmpty then first else later)
      (if later'.isEmpty then first' else later') := by
  rw [isEmpty_eq_of_forall₂ hlater]
  split
  · exact hfirst
  · exact hlater

theorem Reordered.merge (hacc : acc.Reordered acc') (hbranch : branch.Reordered branch') :
    (acc.merge branch).Reordered (acc'.merge branch') := by
  obtain hacc := hacc.parts
  obtain hbranch := hbranch.parts
  exact reordered_iff.mpr
    { reference_eq := hacc.reference_eq
      type_eq := by simp only [Schema.merge, hacc.type_eq, hbranch.type_eq]
      format_eq := by simp only [Schema.merge, hacc.format_eq, hbranch.format_eq]
      enumValues := rel_or hbranch.enumValues hacc.enumValues
      properties := hacc.properties.merge hbranch.properties
      required := .of_eq <| Ascending.ofList_congr fun _ =>
        (hacc.required.append hbranch.required).mem_iff
      items := rel_or hbranch.items hacc.items
      allOf := hacc.allOf
      oneOf := forall₂_laterIfAny hacc.oneOf hbranch.oneOf
      anyOf := forall₂_laterIfAny hacc.anyOf hbranch.anyOf
      readOnly_eq := by simp only [Schema.merge, hacc.readOnly_eq, hbranch.readOnly_eq]
      writeOnly_eq := by simp only [Schema.merge, hacc.writeOnly_eq, hbranch.writeOnly_eq] }

/-- A schema that declares nothing. -/
theorem reordered_empty : Reordered {} {} :=
  reordered_iff.mpr
    { reference_eq := rfl, type_eq := rfl, format_eq := rfl, enumValues := .none,
      properties := .nil, required := .nil, items := .none, allOf := .nil, oneOf := .nil,
      anyOf := .nil, readOnly_eq := rfl, writeOnly_eq := rfl }

theorem reordered_ofReference (target : String) :
    Reordered (.ofReference target) (.ofReference target) :=
  reordered_iff.mpr { reordered_empty.parts with reference_eq := rfl }

theorem Reordered.mergeAll {branches branches' : List Schema}
    (h : List.Forall₂ Reordered branches branches') :
    (mergeAll branches).Reordered (mergeAll branches') :=
  List.rel_foldl (fun _ _ hacc _ _ hbranch => hacc.merge hbranch) reordered_empty h

theorem Reordered.withoutAllOf (h : schema.Reordered schema') :
    Reordered { schema with allOf := [] } { schema' with allOf := [] } :=
  reordered_iff.mpr { h.parts with allOf := .nil }

theorem Reordered.withFlagsOf {node node' : Schema} (h : schema.Reordered schema')
    (hnode : node.Reordered node') :
    (schema.withFlagsOf node).Reordered (schema'.withFlagsOf node') :=
  reordered_iff.mpr
    { h.parts with
      readOnly_eq := by
        simp only [Schema.withFlagsOf, h.parts.readOnly_eq, hnode.parts.readOnly_eq]
      writeOnly_eq := by
        simp only [Schema.withFlagsOf, h.parts.writeOnly_eq, hnode.parts.writeOnly_eq] }

end Schema

/-! ### Resolving -/

/-- Two resolutions came along the same chain to reordered schemas. -/
structure Resolved.Reordered (resolved resolved' : Resolved) : Prop where
  schema : resolved.schema.Reordered resolved'.schema
  chain_eq : resolved'.chain = resolved.chain

namespace Components.Reordered

variable {components components' : Components} {schema schema' : Schema}

theorem follow? (h : components.Reordered components') (chain : RefChain) (target : String) :
    Option.Rel (fun found found' => found'.1 = found.1 ∧ found.2.Reordered found'.2)
      (components.follow? chain target) (components'.follow? chain target) := by
  rw [Components.follow?, Components.follow?]
  cases Reference.schemaName? target with
  | none => exact .none
  | some name =>
    by_cases hchain : name ∈ chain
    · simp [hchain]
    · have hlookup := h.schemas.lookup name
      simpa [hchain] using rel_bind hlookup fun _ _ hschema => .some ⟨rfl, hschema⟩

/-- Along the same chain, the same components are met. -/
theorem resolve (h : components.Reordered components') (hschema : schema.Reordered schema')
    (chain : RefChain) :
    (components.resolve schema chain).Reordered (components'.resolve schema' chain) := by
  induction schema, chain using resolve_induction components generalizing schema' with
  | followed schema chain target name definition href hfollow heq ih =>
    have hfound := h.follow? chain target
    rw [hfollow] at hfound
    cases hfollow' : components'.follow? chain target with
    | none => simp [hfollow'] at hfound
    | some found =>
      obtain ⟨name', definition'⟩ := found
      obtain ⟨rfl, hdefinition⟩ : name' = name ∧ definition.Reordered definition' := by
        simpa [hfollow'] using hfound
      rw [heq, resolve_of_follow?_eq_some (hschema.parts.reference_eq.trans href) hfollow']
      have hresolved := ih hdefinition
      exact ⟨hresolved.schema.withFlagsOf hschema, hresolved.chain_eq⟩
  | unfollowed schema chain target href hfollow heq =>
    have hfound := h.follow? chain target
    rw [hfollow] at hfound
    have hfollow' : components'.follow? chain target = none := by
      cases hfollow' : components'.follow? chain target with
      | none => rfl
      | some found => simp [hfollow'] at hfound
    rw [heq, resolve_of_follow?_eq_none (hschema.parts.reference_eq.trans href) hfollow']
    exact ⟨hschema, rfl⟩
  | plain schema chain href hallOf heq =>
    have hbranches := hschema.parts.allOf
    rw [hallOf, List.forall₂_nil_left_iff] at hbranches
    rw [heq, resolve_of_allOf_eq_nil (hschema.parts.reference_eq.trans href) hbranches]
    exact ⟨hschema, rfl⟩
  | composed schema chain href hallOf heq ih =>
    have hbranches := hschema.parts.allOf
    have hallOf' : schema'.allOf ≠ [] := by
      rintro hnil
      rw [hnil, List.forall₂_nil_right_iff] at hbranches
      exact hallOf hbranches
    rw [heq, resolve_of_allOf_ne_nil (hschema.parts.reference_eq.trans href) hallOf']
    refine ⟨.mergeAll (.cons hschema.withoutAllOf ?_), rfl⟩
    rw [List.forall₂_map_left_iff, List.forall₂_map_right_iff]
    -- The induction hypothesis is about branches of the one schema, so they are kept as members.
    have hmembers := (List.forall₂_and_left _ _).mpr ⟨fun branch hmem => hmem, hbranches⟩
    exact hmembers.imp fun branch branch' ⟨hmem, hbranch⟩ => (ih branch hmem hbranch).schema

theorem resolveNamed (h : components.Reordered components') (name : String) :
    (components.resolveNamed name).Reordered (components'.resolveNamed name) := by
  have hlookup := h.schemas.lookup name
  rw [Components.resolveNamed, Components.resolveNamed]
  generalize components.schemas.lookup name = found, components'.schemas.lookup name = found'
    at hlookup
  cases hlookup with
  | none => exact ⟨Schema.reordered_ofReference _, rfl⟩
  | some hschema => exact h.resolve hschema [name]

/-! ### Going into items -/

theorem unwrapArrays (h : components.Reordered components') {resolved resolved' : Resolved}
    (hresolved : resolved.Reordered resolved') (steps : Nat) :
    Option.Rel Resolved.Reordered (components.unwrapArrays steps resolved)
      (components'.unwrapArrays steps resolved') := by
  induction steps generalizing resolved resolved' with
  | zero => exact .none
  | succ steps ih =>
    rw [Components.unwrapArrays, Components.unwrapArrays]
    have hitems := hresolved.schema.parts.items
    generalize resolved.schema.items = items, resolved'.schema.items = items' at hitems
    cases hitems with
    | none => exact .some hresolved
    | some hitems =>
      simp only
      rw [hresolved.schema.isArray_eq, hresolved.chain_eq]
      split
      · exact ih (h.resolve hitems _)
      · exact .some hresolved

theorem unwrapBound_eq (h : components.Reordered components') (hschema : schema.Reordered schema') :
    components.unwrapBound schema = components'.unwrapBound schema' := by
  have hsizes := Schema.sizeOfProperties_eq (h.schemas.mono fun _ _ => Schema.Reordered.size_eq)
  have hlength : components.schemas.length = components'.schemas.length := by
    simpa [Entries.keys] using h.schemas.keys_perm.length_eq
  rw [unwrapBound, unwrapBound, hsizes, hlength, hschema.size_eq]

end Components.Reordered

end CrudUi
