import CrudUi.Proofs.Inference.FieldNames
import CrudUi.Proofs.Inference.Unwrapping

/-!
# What stands beside a reference

Of a reference that is followed, only the flags beside it are read: two nodes with the same
reference and the same flags resolve to the same schema.  A reference that is not followed stays as
it is, with everything beside it, and is then read as if the reference were not there.  So the other
keywords matter exactly for references that name no schema, a component that is missing, or one
that is on the chain already (`Components.resolve_eq_iff_of_reference_eq`).

## Main definitions

* `Schema.beside` : the schema that the keywords beside a reference make.
-/

namespace CrudUi

namespace Schema

/-- The schema that the keywords beside a reference make.  An `allOf` among them is not folded. -/
def beside (node : Schema) : Schema :=
  { node with reference := none, allOf := [] }

/-- Nothing but flags stands beside the reference, or an `allOf`. -/
def IsBare (node : Schema) : Prop :=
  node.beside = { readOnly := node.readOnly, writeOnly := node.writeOnly }

theorem IsBare.fieldType_eq {node : Schema} (h : node.IsBare) : node.fieldType = .unknown := by
  have hbeside : node.fieldType = node.beside.fieldType := rfl
  rw [hbeside, h]
  rfl

end Schema

namespace Components

variable {components : Components} {node node' : Schema} {chain : RefChain} {target : String}

/-! ### References that are followed -/

/-- A target that is followed takes nothing over from the node but its flags. -/
theorem resolve_eq_of_follow?_ne_none (href : node.reference = some target)
    (href' : node'.reference = some target) (hread : node.readOnly = node'.readOnly)
    (hwrite : node.writeOnly = node'.writeOnly) (hfollow : components.follow? chain target ≠ none) :
    components.resolve node chain = components.resolve node' chain := by
  obtain ⟨⟨name, definition⟩, hfollow⟩ := Option.ne_none_iff_exists'.mp hfollow
  rw [resolve_of_follow?_eq_some href hfollow, resolve_of_follow?_eq_some href' hfollow,
    Schema.withFlagsOf, Schema.withFlagsOf, hread, hwrite]

/-- Schemas that resolve to the same have the same fields. -/
theorem fields?_congr (h : components.resolve node [] = components.resolve node' []) :
    components.fields? node = components.fields? node' :=
  fieldsOf?_congr (within_resolve components node) (within_resolve components node')
    fun steps => by rw [h]

/-! ### References that are left -/

/-- A reference that is left is read as if it were not there. -/
theorem fields?_eq_fields?_beside (href : node.reference = some target)
    (hfollow : components.follow? [] target = none) :
    components.fields? node = components.fields? node.beside := by
  refine fieldsOf?_congr (within_resolve components node) (within_resolve components node.beside)
    fun steps => ?_
  have hbeside : components.resolve node.beside [] = ⟨node.beside, []⟩ :=
    resolve_of_allOf_eq_nil rfl rfl
  rw [resolve_of_follow?_eq_none href hfollow, hbeside]
  cases steps with
  | zero => rfl
  | succ steps =>
    have henter : components.enterItems? ⟨node.beside, []⟩ = components.enterItems? ⟨node, []⟩ :=
      rfl
    rw [unwrapArrays_succ, unwrapArrays_succ, henter]
    cases components.enterItems? ⟨node, []⟩ with
    | none => rfl
    | some inner => rfl

theorem fields?_of_isBare (hbare : node.IsBare) (href : node.reference = some target)
    (hfollow : components.follow? [] target = none) : components.fields? node = some [] := by
  rw [fields?_eq_fields?_beside href hfollow, hbare, fields?, resolve_of_allOf_eq_nil rfl rfl]
  exact fieldsOf?_of_isArray_eq_false rfl

/-! ### Both -/

/-- Two nodes with the same reference and the same flags resolve to the same schema, have a resolved
schema of the same type and have the same fields exactly if the reference is followed or what stands
beside it is the same in each of these respects.  A bare reference that is left has no type and no
fields. -/
theorem resolve_eq_iff_of_reference_eq (components : Components) (chain : RefChain)
    {node node' : Schema} {target : String} (href : node.reference = some target)
    (href' : node'.reference = some target) (hread : node.readOnly = node'.readOnly)
    (hwrite : node.writeOnly = node'.writeOnly) :
    (components.resolve node chain = components.resolve node' chain ↔
      components.follow? chain target ≠ none ∨ node = node') ∧
    ((components.resolve node chain).schema.fieldType =
        (components.resolve node' chain).schema.fieldType ↔
      components.follow? chain target ≠ none ∨
        node.beside.fieldType = node'.beside.fieldType) ∧
    (components.fields? node = components.fields? node' ↔
      components.follow? [] target ≠ none ∨
        components.fields? node.beside = components.fields? node'.beside) ∧
    (node.IsBare →
      (components.follow? chain target = none →
        (components.resolve node chain).schema.fieldType = .unknown) ∧
      (components.follow? [] target = none → components.fields? node = some [])) := by
  have hresolve := @resolve_eq_of_follow?_ne_none components node node' chain target href href'
    hread hwrite
  have hfields : components.follow? [] target ≠ none →
      components.fields? node = components.fields? node' := fun hfollow =>
    fields?_congr (resolve_eq_of_follow?_ne_none href href' hread hwrite hfollow)
  refine ⟨?_, ?_, ?_, fun hbare => ⟨fun hfollow => ?_, fields?_of_isBare hbare href⟩⟩
  · by_cases hfollow : components.follow? chain target = none
    · rw [resolve_of_follow?_eq_none href hfollow, resolve_of_follow?_eq_none href' hfollow]
      simp [hfollow]
    · exact iff_of_true (hresolve hfollow) (.inl hfollow)
  · by_cases hfollow : components.follow? chain target = none
    · rw [resolve_of_follow?_eq_none href hfollow, resolve_of_follow?_eq_none href' hfollow,
        or_iff_right (not_not_intro hfollow)]
      rfl
    · exact iff_of_true (by rw [hresolve hfollow]) (.inl hfollow)
  · by_cases hfollow : components.follow? [] target = none
    · rw [fields?_eq_fields?_beside href hfollow, fields?_eq_fields?_beside href' hfollow,
        or_iff_right (not_not_intro hfollow)]
    · exact iff_of_true (hfields hfollow) (.inl hfollow)
  · rw [resolve_of_follow?_eq_none href hfollow, hbare.fieldType_eq]

/-! ### A reference to tags -/

/-- A reference to the component `Tag`, with properties beside it. -/
def tagReference : Schema where
  reference := some "#/components/schemas/Tag"
  properties := [("color", {})]
  readOnly := some true

/-- The same reference, with nothing but the flag beside it. -/
def bareTagReference : Schema where
  reference := some "#/components/schemas/Tag"
  readOnly := some true

/-- Components among which tags are found. -/
def tagComponents : Components where
  schemas := [("Tag", { properties := [("label", {})] })]

theorem follow?_tag :
    tagComponents.follow? [] "#/components/schemas/Tag" =
      some ("Tag", { properties := [("label", {})] }) :=
  follow?_of_lookup (by decide +kernel) List.not_mem_nil rfl

/-- Where there are tags, the properties beside the reference make no difference. -/
theorem resolve_tagReference :
    tagReference ≠ bareTagReference ∧
      tagReference.reference = some "#/components/schemas/Tag" ∧
      bareTagReference.reference = some "#/components/schemas/Tag" ∧
      tagReference.readOnly = bareTagReference.readOnly ∧
      tagReference.writeOnly = bareTagReference.writeOnly ∧
      tagComponents.resolve tagReference [] = tagComponents.resolve bareTagReference [] ∧
      tagComponents.fields? tagReference = tagComponents.fields? bareTagReference := by
  have hfollow : tagComponents.follow? [] "#/components/schemas/Tag" ≠ none := by
    simp [follow?_tag]
  have href : tagReference.reference = some "#/components/schemas/Tag" := rfl
  have href' : bareTagReference.reference = some "#/components/schemas/Tag" := rfl
  have hread : tagReference.readOnly = bareTagReference.readOnly := rfl
  have hwrite : tagReference.writeOnly = bareTagReference.writeOnly := rfl
  obtain ⟨hresolve, -, hfields, -⟩ :=
    resolve_eq_iff_of_reference_eq tagComponents [] href href' hread hwrite
  exact ⟨by simp [tagReference, bareTagReference], href, href', hread, hwrite,
    hresolve.mpr (.inl hfollow), hfields.mpr (.inl hfollow)⟩

/-- Where there are no components, the properties beside the reference are the fields. -/
theorem fields?_dangling_tagReference :
    (tagReference.reference = bareTagReference.reference ∧
      tagReference.readOnly = bareTagReference.readOnly ∧
      tagReference.writeOnly = bareTagReference.writeOnly) ∧
    (fields? {} tagReference).map (·.map Field.name) = some ["color"] ∧
      (resolve {} tagReference []).schema.fieldType = .object ∧
    fields? {} bareTagReference = some [] ∧
      (resolve {} bareTagReference []).schema.fieldType = .unknown := by
  have hfollow : follow? {} [] "#/components/schemas/Tag" = none := by
    cases hname : Reference.schemaName? "#/components/schemas/Tag" <;>
      simp [follow?, hname, Entries.lookup]
  have htag : resolve {} tagReference [] = ⟨tagReference, []⟩ :=
    resolve_of_follow?_eq_none rfl hfollow
  have hbare : resolve {} bareTagReference [] = ⟨bareTagReference, []⟩ :=
    resolve_of_follow?_eq_none rfl hfollow
  refine ⟨⟨rfl, rfl, rfl⟩, ?_, by rw [htag]; decide, fields?_of_isBare rfl rfl hfollow,
    by rw [hbare]; decide⟩
  rw [fields?, htag, fieldsOf?_of_isArray_eq_false (by decide), Option.map_some,
    names_objectFields]
  decide

end Components

end CrudUi
