import CrudUi.Proofs.Compile.Entities
import CrudUi.Proofs.Inference.Choices

/-!
# The branches of choices do not matter

Documents that differ in nothing but the contents of `oneOf` and `anyOf`, wherever a schema stands
in them, are compiled to the same UI schema, or fail with the same error
(`Document.compile_eq_of_eraseChoices_eq`).  Only whether a choice has branches is ever looked at.
-/

namespace CrudUi

/-- A draft without the contents of the choices in its payloads becomes the same entity. -/
theorem Draft.build_eraseChoices (draft : Draft) (components : Components) :
    (draft.mapSchemas Schema.eraseChoices).build components.eraseChoices =
      draft.build components := by
  refine build_congr rfl rfl rfl rfl (fun name _ => components.namedFields?_eraseChoices name) ?_
  exact List.forall₂_map_right_iff.mpr <| List.forall₂_same.mpr fun schema _ =>
    components.fields?_eraseChoices schema

namespace Document

/-- A document without the contents of its choices. -/
def eraseChoices (document : Document) : Document :=
  document.mapSchemas Schema.eraseChoices

theorem compile_eraseChoices (document : Document) :
    document.eraseChoices.compile = document.compile := by
  refine compile_congr rfl ?_
  rw [eraseChoices, drafts_mapSchemas Schema.referencedName?_eraseChoices]
  exact List.forall₂_map_right_iff.mpr <| List.forall₂_same.mpr fun entry _ =>
    ⟨rfl, entry.2.build_eraseChoices document.components⟩

/-- Documents that are the same without the contents of their choices are compiled to the same. -/
theorem compile_eq_of_eraseChoices_eq {document document' : Document}
    (h : document.eraseChoices = document'.eraseChoices) : document.compile = document'.compile :=
  calc document.compile
    _ = document.eraseChoices.compile := document.compile_eraseChoices.symm
    _ = document'.eraseChoices.compile := by rw [h]
    _ = document'.compile := document'.compile_eraseChoices

/-! ### Answers -/

/-- An answer of several shapes, with a value of several shapes. -/
def answerSchema (shapes values : List Schema) : Schema where
  properties := [("text", {}), ("value", { oneOf := values })]
  anyOf := shapes

/-- A document that offers answers. -/
def answers (shapes values : List Schema) : Document where
  openapi := some (.string "3.0.0")
  paths := [("/answers", { get := some { responses := [("200", .inline { content :=
    [("application/json", { schema := some { allOf := [answerSchema shapes values] } })] })] } })]
  components := { schemas := [("Answer", answerSchema values shapes)] }

theorem eraseChoices_answers (shape value : Schema) (shapes values : List Schema) :
    (answers (shape :: shapes) (value :: values)).eraseChoices = answers [{}] [{}] :=
  rfl

/-- Answers of one shape. -/
def plainAnswers : Document :=
  answers [{ type := some (.single "object") }] [.ofReference "#/components/schemas/Answer"]

/-- Answers of other shapes, and more of them. -/
def variedAnswers : Document :=
  answers [{}, { type := some (.single "array") }] [{ enumValues := some [] }]

theorem compile_variedAnswers :
    plainAnswers ≠ variedAnswers ∧ plainAnswers.eraseChoices = variedAnswers.eraseChoices ∧
      plainAnswers.compile = variedAnswers.compile := by
  have herase : plainAnswers.eraseChoices = variedAnswers.eraseChoices :=
    (eraseChoices_answers ..).trans (eraseChoices_answers ..).symm
  refine ⟨?_, herase, compile_eq_of_eraseChoices_eq herase⟩
  simp [plainAnswers, variedAnswers, answers, answerSchema]

end Document

end CrudUi
