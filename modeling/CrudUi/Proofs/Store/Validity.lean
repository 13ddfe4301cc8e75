import CrudUi.Proofs.Compile.Entities
import CrudUi.Proofs.Inference.Properties
import CrudUi.Proofs.Store.Samples

/-!
# Rows that stay valid

A record is stored only if it is valid, so whatever requests a seeded store is given, each of its
rows is valid or a sample row that nothing was written over (`Store.ValidOrSample`).  All rows of
all runs are valid exactly if the sample rows are, which is a property of the fields
(`rows_valid_along_run_iff`); and a row is accepted as it is, by an update that changes nothing,
exactly if it is valid.
-/

namespace CrudUi

namespace Store

variable {store : Store} {count : Nat}

/-- Every row is valid or one of the sample rows. -/
def ValidOrSample (store : Store) (count : Nat) : Prop :=
  ∀ row ∈ store.rows, store.entity.validate row = .ok () ∨
    ∃ seed < count, row = store.entity.sample seed

theorem mem_rows_seeded_iff {entity : Entity} {row : Record} :
    row ∈ (seeded entity count).rows ↔ ∃ seed < count, row = entity.sample seed := by
  simp [seeded, eq_comm]

theorem validOrSample_seeded (entity : Entity) (count : Nat) :
    (seeded entity count).ValidOrSample count :=
  fun _ hrow => .inr (mem_rows_seeded_iff.mp hrow)

/-- Rows come into a store only after they were found valid. -/
theorem ValidOrSample.outcome (h : store.ValidOrSample count) {request : StoreRequest}
    {next : Store} (houtcome : store.Outcome request next) : next.ValidOrSample count := by
  cases houtcome with
  | kept => exact h
  | refused => simpa [ValidOrSample] using h
  | created input hvalid hfree =>
    intro row hrow
    rcases List.mem_append.mp hrow with hrow | hrow
    · simpa using h row hrow
    · rw [List.mem_singleton.mp hrow]
      exact .inl (by simpa using hvalid)
  | updated id input index row hposition hrow hvalid =>
    intro other hother
    rcases List.mem_or_eq_of_mem_set hother with hother | rfl
    · exact h other hother
    · exact .inl hvalid
  | deleted id index row hposition hrow =>
    exact fun other hother => h other (List.eraseIdx_subset hother)

theorem validOrSample_after (entity : Entity) (count : Nat) (requests : List StoreRequest) :
    ((seeded entity count).after requests).ValidOrSample count :=
  after_induction (motive := fun reached => reached.ValidOrSample count)
    (validOrSample_seeded entity count) (fun houtcome ih => ih.outcome houtcome) requests

/-- An update that writes nothing asks whether the row is valid. -/
theorem update_nil_eq_iff {id : String} {row : Record} (hread : store.read id = .ok row) :
    store.update id [] = (.ok row, store) ↔ store.entity.validate row = .ok () := by
  cases hposition : store.position? id with
  | none => simp [read, row?, hposition] at hread
  | some index =>
    obtain ⟨found, hfound, -⟩ := exists_row_of_position? hposition
    obtain rfl : found = row := Except.ok.inj ((read_eq hposition hfound).symm.trans hread)
    have hmerge : Entries.merge found [] = found := rfl
    rw [update_eq hposition hfound, hmerge]
    cases hvalid : store.entity.validate found with
    | error error => simp
    | ok =>
      obtain ⟨hlt, hget⟩ := List.getElem?_eq_some_iff.mp hfound
      have hset : store.rows.set index found = store.rows := by
        rw [← hget, List.set_getElem_self]
      simp [hset]

/-- Of a compiled entity and a number of sample rows, the rows of all runs are valid exactly if
every field fits in every sample row.  A row that is not valid is a sample row that nothing was
written over, and the rows that are valid are those that an update may leave as they are. -/
theorem rows_valid_along_run_iff {document : Document} {ui : UiSchema}
    (hcompile : document.compile = .ok ui) {id : String} {entity : Entity}
    (hentity : (id, entity) ∈ ui.entities) (count : Nat) :
    ((∀ requests, ∀ row ∈ ((seeded entity count).after requests).rows,
        entity.validate row = .ok ()) ↔
      ∀ seed < count, ∀ field ∈ entity.fields, entity.SampleFits field seed) ∧
    ∀ requests,
      (∀ row ∈ ((seeded entity count).after requests).rows, entity.validate row = .ok () ∨
        ∃ seed < count, row = entity.sample seed) ∧
      ∀ id row, ((seeded entity count).after requests).read id = .ok row →
        (((seeded entity count).after requests).update id [] =
          (.ok row, (seeded entity count).after requests) ↔ entity.validate row = .ok ()) := by
  have hnodup := Document.nodup_names_of_mem_entities hcompile hentity
  have hrows : ∀ requests, ∀ row ∈ ((seeded entity count).after requests).rows,
      entity.validate row = .ok () ∨ ∃ seed < count, row = entity.sample seed := by
    intro requests
    have h := validOrSample_after entity count requests
    rwa [ValidOrSample, entity_after] at h
  refine ⟨⟨fun h seed hseed => ?_, fun h requests row hrow => ?_⟩, fun requests =>
    ⟨hrows requests, fun id row hread => ?_⟩⟩
  · rw [← Entity.validate_sample_eq_ok_iff hnodup]
    exact h [] _ (mem_rows_seeded_iff.mpr ⟨seed, hseed, rfl⟩)
  · rcases hrows requests row hrow with hvalid | ⟨seed, hseed, rfl⟩
    · exact hvalid
    · exact (Entity.validate_sample_eq_ok_iff hnodup seed).mpr (h seed hseed)
  · have h := update_nil_eq_iff hread
    rwa [entity_after] at h

/-! ### A field without a sample -/

/-- A note demands an object, of which there are no samples. -/
def noteSchema : Schema where
  type := some (.single "object")
  properties := [("id", { type := some (.single "string") }),
    ("meta", { type := some (.single "object") })]
  required := ["meta"]

/-- The operation that lists the notes. -/
def listNotes : CrudOperation where
  path := "/notes"
  method := .get
  action := .list
  operation := { responses := [("200", .inline { content := [("application/json",
    { schema := some (.ofReference "#/components/schemas/Note") })] })] }

/-- A document with one operation. -/
def notes : Document where
  openapi := some (.string "3.0.0")
  paths := [("/notes", { get := some listNotes.operation })]
  components := { schemas := [("Note", noteSchema)] }

/-- The entity of the notes. -/
def note : Entity :=
  Draft.entity
    { id := "Note"
      resourcePath := "/notes"
      endpoints := { list := some ⟨"GET", "/notes", none⟩ }
      schemaName := some "Note"
      candidates := [.ofReference "#/components/schemas/Note"] }
    [.ofProperty "id" { type := some (.single "string") } false,
      .ofProperty "meta" { type := some (.single "object") } true]

theorem namedFields?_note : notes.components.namedFields? "Note" = some note.fields := by
  have hplain : noteSchema.IsPlain := ⟨rfl, rfl⟩
  rw [Components.namedFields?_of_isPlain rfl hplain (by decide),
    Components.objectFields_of_forall_isPlain (by decide)]
  decide

theorem compile_notes : notes.compile = .ok { entities := [("Note", note)] } := by
  have hversion : notes.checkVersion = .ok () :=
    Document.checkVersion_eq_ok_iff.mpr ⟨"3.0.0", rfl, by decide⟩
  have hdrafts : notes.drafts = [("Note",
      { id := "Note"
        resourcePath := "/notes"
        endpoints := { list := some ⟨"GET", "/notes", none⟩ }
        schemaName := some "Note"
        candidates := [.ofReference "#/components/schemas/Note"] })] := by decide +kernel
  have hfields : note.fields ≠ [] := by simp [note, Draft.entity]
  exact Document.compile_of_drafts_eq_singleton hversion hdrafts rfl namedFields?_note hfields

theorem rows_valid_along_run_notes :
    notes.compile = .ok { entities := [("Note", note)] } ∧
      ((∀ requests, ∀ row ∈ ((seeded note 1).after requests).rows, note.validate row = .ok ()) ↔
        ∀ seed < 1, ∀ field ∈ note.fields, note.SampleFits field seed) :=
  ⟨compile_notes, (rows_valid_along_run_iff compile_notes (List.mem_singleton_self _) 1).1⟩

/-- The sample row of a note is not valid, and an update that changes nothing is refused. -/
theorem invalid_sample_note :
    notes.compile = .ok { entities := [("Note", note)] } ∧
      (∃ row ∈ (seeded note 1).rows,
        note.validate row = .error (.invalid "Note" [.missing "meta"])) ∧
      (∃ row, (seeded note 1).read "id-1" = .ok row) ∧
      ((seeded note 1).update "id-1" []).1 = .error (.invalid "Note" [.missing "meta"]) := by
  refine ⟨compile_notes, ⟨note.sample 0, ?_, ?_⟩, ⟨note.sample 0, ?_⟩, ?_⟩
  · exact mem_rows_seeded_iff.mpr ⟨0, Nat.one_pos, rfl⟩
  · decide
  · decide
  · decide

end Store

end CrudUi
