import CrudUi.CommandLine.OutputFormat
import CrudUi.Proofs.Json.Rereading

/-!
# Texts of UI schemas

The only number that is written for a UI schema is its version, so where that is a natural of 64
bits the text of a UI schema is read again as the value that was written
(`UiSchema.ofText_render`).
-/

namespace CrudUi

theorem Json.hasNaturals_ofStrings (texts : List String) : (Json.ofStrings texts).HasNaturals := by
  refine .array fun item hitem => ?_
  obtain ⟨text, -, rfl⟩ := List.mem_map.mp hitem
  exact .string text

theorem Json.hasNaturals_ofString? (text : Option String) : (Json.ofString? text).HasNaturals := by
  cases text with
  | none => exact .null
  | some text => exact .string text

theorem hasNaturals_of_mem_optionalMember {α : Type} {name : String} {value : Option α}
    {write : α → Json} (h : ∀ value, (write value).HasNaturals) :
    ∀ entry ∈ optionalMember name (value.map write), entry.2.HasNaturals := by
  cases value with
  | none => exact fun _ hmem => absurd hmem List.not_mem_nil
  | some value => exact List.forall_mem_singleton.mpr (h value)

theorem Field.hasNaturals_toJson (field : Field) : field.toJson.HasNaturals := by
  rw [Field.toJson]
  refine .object ?_
  simp only [List.forall_mem_append, List.forall_mem_cons]
  refine ⟨⟨⟨⟨⟨⟨.string _, .string _, .string _, by simp⟩, ?_⟩, .bool _, by simp⟩, ?_⟩, ?_⟩, ?_⟩
  · exact hasNaturals_of_mem_optionalMember .string
  · exact hasNaturals_of_mem_optionalMember .bool
  · exact hasNaturals_of_mem_optionalMember .bool
  · exact hasNaturals_of_mem_optionalMember Json.hasNaturals_ofStrings

theorem Endpoint.hasNaturals_toJson (endpoint : Endpoint) : endpoint.toJson.HasNaturals := by
  rw [Endpoint.toJson]
  refine .object ?_
  simp only [List.forall_mem_append, List.forall_mem_cons]
  exact ⟨⟨.string _, .string _, by simp⟩, hasNaturals_of_mem_optionalMember .string⟩

theorem Endpoints.hasNaturals_toJson (endpoints : Endpoints) : endpoints.toJson.HasNaturals := by
  refine .object fun entry hentry => ?_
  obtain ⟨⟨action, endpoint⟩, -, rfl⟩ := List.mem_map.mp hentry
  exact endpoint.hasNaturals_toJson

theorem Views.hasNaturals_toJson (views : Views) : views.toJson.HasNaturals := by
  have hview (name : String) (texts : List String) :
      (Json.object [(name, .ofStrings texts)]).HasNaturals :=
    .object (List.forall_mem_singleton.mpr (Json.hasNaturals_ofStrings texts))
  rw [Views.toJson]
  refine .object ?_
  simp only [List.forall_mem_cons]
  exact ⟨hview _ _, hview _ _, hview _ _, by simp⟩

theorem Entity.hasNaturals_toJson (entity : Entity) : entity.toJson.HasNaturals := by
  have hfields : (Json.array (entity.fields.map Field.toJson)).HasNaturals := by
    refine .array fun item hitem => ?_
    obtain ⟨field, -, rfl⟩ := List.mem_map.mp hitem
    exact field.hasNaturals_toJson
  rw [Entity.toJson]
  refine .object ?_
  simp only [List.forall_mem_cons]
  exact ⟨.string _, .string _, .string _, Json.hasNaturals_ofString? _, hfields,
    entity.endpoints.hasNaturals_toJson, entity.views.hasNaturals_toJson, by simp⟩

namespace UiSchema

theorem hasNaturals_toJson {ui : UiSchema} (h : ui.version ≤ Json.Numeral.maxWord) :
    ui.toJson.HasNaturals := by
  rw [toJson]
  refine .object ?_
  simp only [List.forall_mem_cons]
  refine ⟨.number h, .object fun entry hentry => ?_, by simp⟩
  obtain ⟨⟨name, entity⟩, -, rfl⟩ := List.mem_map.mp hentry
  exact entity.hasNaturals_toJson

/-- The text of a UI schema is read as its value, and nothing follows it. -/
theorem ofText_render {ui : UiSchema} (h : ui.version ≤ Json.Numeral.maxWord) :
    Json.Node.ofText (OutputFormat.json.render ui) = (ui.toJson.node, false) :=
  Json.Node.ofText_indented (hasNaturals_toJson h)

end UiSchema

end CrudUi
