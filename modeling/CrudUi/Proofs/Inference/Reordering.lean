import CrudUi.Proofs.Resolution.Reordering

/-!
# Fields do not depend on the order of declarations

What becomes of a property is read off single keywords, the allowed values are sorted, and so are
the properties.  The fields of reordered schemas are therefore the same, and going into the items of
both ends or does not (`Components.Reordered.fields?_eq`).
-/

namespace CrudUi

/-! ### One property -/

theorem enumTexts_eq_of_perm {values values' : List Json} (h : values.Perm values') :
    enumTexts values = enumTexts values' :=
  Ascending.ofList_congr fun _ => (h.map _).mem_iff

namespace Schema.Reordered

variable {schema schema' : Schema}

theorem typeOf?_eq (h : schema.Reordered schema') (rule : TypingRule) :
    rule.typeOf? schema = rule.typeOf? schema' := by
  cases rule with
  | polymorphic => rw [TypingRule.typeOf?, TypingRule.typeOf?, h.isPolymorphic_eq]
  | declared => rw [TypingRule.typeOf?, TypingRule.typeOf?, h.typeName?_eq]
  | objectShaped => rw [TypingRule.typeOf?, TypingRule.typeOf?, h.isObjectShaped_eq]

theorem fieldType_eq (h : schema.Reordered schema') : schema.fieldType = schema'.fieldType := by
  have hrules : (fun rule : TypingRule => rule.typeOf? schema) = (·.typeOf? schema') :=
    funext h.typeOf?_eq
  rw [fieldType, fieldType, hrules]

theorem ofProperty_eq (h : schema.Reordered schema') (name : String) (required : Bool) :
    Field.ofProperty name schema required = Field.ofProperty name schema' required := by
  have henum : schema.enumValues.map enumTexts = schema'.enumValues.map enumTexts :=
    map_eq_of_rel h.parts.enumValues fun _ _ => enumTexts_eq_of_perm
  rw [Field.ofProperty, Field.ofProperty, henum, h.fieldType_eq, h.parts.format_eq,
    h.parts.readOnly_eq, h.parts.writeOnly_eq]

end Schema.Reordered

/-! ### All properties -/

namespace Components.Reordered

variable {components components' : Components}

theorem objectFields_eq (h : components.Reordered components') {object object' : Resolved}
    (hobject : object.Reordered object') :
    components.objectFields object = components'.objectFields object' := by
  obtain ⟨hschema, hchain⟩ := hobject
  rw [objectFields, objectFields, hschema.isArray_eq, hschema.isObjectShaped_eq, hchain]
  split
  · rfl
  · have hnames : Ascending.ofList (Entries.keys object.schema.properties) =
        Ascending.ofList (Entries.keys object'.schema.properties) :=
      Ascending.ofList_congr fun _ => hschema.parts.properties.keys_perm.mem_iff
    rw [hnames]
    refine List.filterMap_congr fun name _ => ?_
    refine map_eq_of_rel (hschema.parts.properties.lookup name) fun property property' hproperty => ?_
    have hrequired := hschema.parts.required.contains_eq (a := name)
    have hresolved := h.resolve hproperty object.chain
    rw [hrequired, hresolved.schema.ofProperty_eq]

theorem fieldsOf?_eq (h : components.Reordered components') {schema schema' : Schema}
    (hschema : schema.Reordered schema') {resolved resolved' : Resolved}
    (hresolved : resolved.Reordered resolved') :
    components.fieldsOf? schema resolved = components'.fieldsOf? schema' resolved' := by
  rw [fieldsOf?, fieldsOf?, h.unwrapBound_eq hschema]
  exact map_eq_of_rel (h.unwrapArrays hresolved _) fun _ _ hobject => h.objectFields_eq hobject

theorem fields?_eq (h : components.Reordered components') {schema schema' : Schema}
    (hschema : schema.Reordered schema') :
    components.fields? schema = components'.fields? schema' :=
  h.fieldsOf?_eq hschema (h.resolve hschema [])

theorem namedFields?_eq (h : components.Reordered components') (name : String) :
    components.namedFields? name = components'.namedFields? name :=
  h.fieldsOf?_eq (h.resolveNamed name).schema (h.resolveNamed name)

end Components.Reordered

end CrudUi
