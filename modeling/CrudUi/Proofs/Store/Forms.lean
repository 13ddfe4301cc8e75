import CrudUi.Proofs.Compile.WellFormed
import CrudUi.Proofs.Store.Samples

/-!
# The form and validation agree

A form offers the fields that a client may set, and validation demands the fields that a client has
to set.  For a compiled entity the two fit together: a record that keeps to the form is valid
exactly if it gives the required fields of the form, and admissible values only
(`Entity.validate_eq_ok_iff_of_keepsToForm`).  So a record that fills the form is valid, and what
validation demands are the required fields of the form (`Document.validate_of_fillsForm`).

## Main definitions

* `Entity.Admits` : a value is acceptable for a field.
* `Entity.KeepsToForm`, `Entity.FillsForm` : records that are made with the form.
-/

namespace CrudUi

namespace Entity

variable {entity : Entity} {record : Record} {field : Field}

/-- A value is acceptable for a field: it is of the kind of the field, or a text under the primary
key, and a text is one of the allowed ones, where these are listed. -/
structure Admits (entity : Entity) (field : Field) (value : Json) : Prop where
  accepts : field.type.accepts value = true ∨ entity.isKey field = true ∧ value.isString = true
  mem_allowed : ∀ allowed text, field.enumValues = some allowed → value = .string text →
    text ∈ allowed

/-- No field that the form does not offer has a value in a record. -/
def KeepsToForm (entity : Entity) (record : Record) : Prop :=
  ∀ field ∈ entity.fields, field.name ∉ entity.views.form → record.value? field.name = none

/-- A record is made by filling in every field of the form. -/
structure FillsForm (entity : Entity) (record : Record) : Prop where
  keepsToForm : entity.KeepsToForm record
  exists_value : ∀ field ∈ entity.fields, field.name ∈ entity.views.form →
    ∃ value, record.value? field.name = some value ∧ entity.Admits field value

/-! ### What validation asks of a field -/

theorem valueProblem?_eq_none_iff_admits {value : Json} :
    entity.valueProblem? field value = none ↔ entity.Admits field value := by
  by_cases haccepts :
      field.type.accepts value = true ∨ entity.isKey field = true ∧ value.isString = true
  · rw [valueProblem?_eq_none_iff haccepts]
    exact ⟨fun h => ⟨haccepts, h⟩, Admits.mem_allowed⟩
  · have hrefused :
        (!field.type.accepts value && !(entity.isKey field && value.isString)) = true := by
      rw [← Bool.not_or, Bool.not_eq_true', ← Bool.not_eq_true]
      simpa using haccepts
    unfold valueProblem?
    rw [if_pos hrefused]
    exact iff_of_false (Option.some_ne_none _) fun h => haccepts h.accepts

theorem fieldProblem?_eq_none_iff :
    entity.fieldProblem? record field = none ↔
      (∀ value, record.value? field.name = some value → entity.Admits field value) ∧
        (record.value? field.name = none → field.required = true → field.isReadOnly = true) := by
  cases hvalue : record.value? field.name with
  | some value => simp [fieldProblem?, hvalue, valueProblem?_eq_none_iff_admits]
  | none => cases hreadOnly : field.isReadOnly <;> simp [fieldProblem?, hvalue, hreadOnly]

/-- A value is never called missing. -/
theorem valueProblem?_ne_missing (field : Field) (value : Json) (name : String) :
    entity.valueProblem? field value ≠ some (.missing name) := by
  unfold valueProblem?
  repeat' split
  all_goals simp

theorem fieldProblem?_eq_missing_iff {name : String} :
    entity.fieldProblem? record field = some (.missing name) ↔
      field.name = name ∧ record.value? name = none ∧ field.required = true ∧
        field.isReadOnly = false := by
  cases hvalue : record.value? field.name with
  | none =>
    rw [fieldProblem?, hvalue]
    cases field.required <;> cases field.isReadOnly <;> simp
    rintro rfl
    exact hvalue
  | some value =>
    rw [fieldProblem?, hvalue]
    refine iff_of_false (valueProblem?_ne_missing field value name) ?_
    rintro ⟨rfl, hnone, -⟩
    simp [hvalue] at hnone

/-! ### The form of an entity -/

section Form

variable (hform : entity.views.form = formFields entity.fields entity.primaryKey)
  (hnodup : (entity.fields.map Field.name).Nodup)

include hform hnodup

/-- A form offers the fields that a client may set. -/
theorem mem_form_iff (hfield : field ∈ entity.fields) :
    field.name ∈ entity.views.form ↔ isEditable entity.primaryKey field = true := by
  rw [hform, (formFields_perm entity.fields entity.primaryKey).mem_iff,
    name_mem_names_filter_iff hnodup hfield]

/-- Of the required fields, a form leaves out those that the server sets. -/
theorem mem_form_iff_of_required (hfield : field ∈ entity.fields)
    (hrequired : field.required = true) :
    field.name ∈ entity.views.form ↔ field.isReadOnly = false := by
  rw [mem_form_iff hform hnodup hfield, isEditable, hrequired]
  simp

/-- A record that keeps to the form is valid if it has a value for each required field of the form,
and only values that their fields admit. -/
theorem validate_eq_ok_iff_of_keepsToForm (hkeeps : entity.KeepsToForm record) :
    entity.validate record = .ok () ↔
      ∀ field ∈ entity.fields, field.name ∈ entity.views.form →
        (∀ value, record.value? field.name = some value → entity.Admits field value) ∧
          (record.value? field.name = none → field.required = false) := by
  rw [validate_eq_ok_iff]
  refine forall₂_congr fun field hfield => ?_
  rw [fieldProblem?_eq_none_iff]
  by_cases hoffered : field.name ∈ entity.views.form
  · rw [imp_iff_right hoffered]
    refine and_congr_right fun _ => forall_congr' fun _ => ?_
    cases hrequired : field.required with
    | false => simp
    | true =>
      rw [mem_form_iff_of_required hform hnodup hfield hrequired] at hoffered
      simp [hoffered]
  · have hnone := hkeeps field hfield hoffered
    refine iff_of_true ⟨by simp [hnone], fun _ hrequired => ?_⟩ (absurd · hoffered)
    rw [mem_form_iff_of_required hform hnodup hfield hrequired] at hoffered
    simpa using hoffered

theorem FillsForm.validate_eq_ok (h : entity.FillsForm record) :
    entity.validate record = .ok () := by
  refine (validate_eq_ok_iff_of_keepsToForm hform hnodup h.keepsToForm).mpr
    fun field hfield hoffered => ?_
  obtain ⟨value, hvalue, hadmits⟩ := h.exists_value field hfield hoffered
  rw [hvalue]
  exact ⟨fun _ hsome => Option.some.inj hsome ▸ hadmits, fun hnone => nomatch hnone⟩

/-- What is ever demanded is what the form offers as required. -/
theorem exists_missing_mem_problems_iff {name : String} :
    (∃ record, .missing name ∈ entity.problems record) ↔
      name ∈ entity.views.form ∧ ∃ field ∈ entity.fields, field.name = name ∧
        field.required = true := by
  simp only [problems, List.mem_filterMap, fieldProblem?_eq_missing_iff]
  constructor
  · rintro ⟨record, field, hfield, rfl, -, hrequired, hreadOnly⟩
    exact ⟨(mem_form_iff_of_required hform hnodup hfield hrequired).mpr hreadOnly, field, hfield,
      rfl, hrequired⟩
  · rintro ⟨hoffered, field, hfield, rfl, hrequired⟩
    exact ⟨[], field, hfield, rfl, rfl, hrequired,
      (mem_form_iff_of_required hform hnodup hfield hrequired).mp hoffered⟩

end Form

end Entity

namespace Document

theorem form_of_mem_entities {document : Document} {ui : UiSchema}
    (h : document.compile = .ok ui) {id : String} {entity : Entity}
    (hentity : (id, entity) ∈ ui.entities) :
    entity.views.form = formFields entity.fields entity.primaryKey := by
  obtain ⟨draft, fields, -, -, rfl⟩ := exists_draft_of_mem_entities h hentity
  rfl

/-- A record that fills the form of a compiled entity is valid, and the fields that some record is
told to be missing are the required fields of the form. -/
theorem validate_of_fillsForm {document : Document} {ui : UiSchema}
    (hcompile : document.compile = .ok ui) {id : String} {entity : Entity}
    (hentity : (id, entity) ∈ ui.entities) :
    (∀ record, entity.FillsForm record → entity.validate record = .ok ()) ∧
      ∀ name, (∃ record, .missing name ∈ entity.problems record) ↔
        name ∈ entity.views.form ∧ ∃ field ∈ entity.fields, field.name = name ∧
          field.required = true := by
  have hform := form_of_mem_entities hcompile hentity
  have hnodup := nodup_names_of_mem_entities hcompile hentity
  exact ⟨fun _ hfills => hfills.validate_eq_ok hform hnodup,
    fun _ => Entity.exists_missing_mem_problems_iff hform hnodup⟩

/-- The record of a dog that a client makes with the form. -/
def dog : Record :=
  [("kind", .string "dog"), ("tags", .array [])]

theorem fillsForm_dog : pet.FillsForm dog where
  keepsToForm := by
    unfold Entity.KeepsToForm
    decide
  exists_value := by
    refine List.forall_mem_cons.mpr ⟨fun hoffered => absurd hoffered (by decide),
      List.forall_mem_cons.mpr ⟨fun _ => ⟨.string "dog", rfl, .inl rfl, ?_⟩,
        List.forall_mem_singleton.mpr fun _ => ⟨.array [], rfl, .inl rfl, ?_⟩⟩⟩
    · rintro _ _ ⟨⟩ ⟨⟩
      decide
    · rintro _ _ ⟨⟩

theorem validate_of_fillsForm_dog :
    (petDocument petPaths).compile = .ok { entities := [("Pet", pet)] } ∧ pet.FillsForm dog ∧
      pet.validate dog = .ok () ∧
      ((∃ record, .missing "kind" ∈ pet.problems record) ↔
        "kind" ∈ pet.views.form ∧ ∃ field ∈ pet.fields, field.name = "kind" ∧
          field.required = true) := by
  have hagree := validate_of_fillsForm compile_petPaths (List.mem_singleton_self _)
  exact ⟨compile_petPaths, fillsForm_dog, hagree.1 dog fillsForm_dog, hagree.2 "kind"⟩

end Document

end CrudUi
