import CrudUi.CommandLine.Output
import CrudUi.Proofs.CommandLine.FileTree

/-!
# Commands on trees of files

A command that is carried out on a tree of files gives a result and leaves a tree
(`FileTree.perform`).  Compiling the document in a file is a function of the file
(`FileTree.uiSchema`) that leaves the tree as it is, and writing an output changes no entry but the
file of the output (`FileTree.perform_writeOutput_cases`).
-/

namespace CrudUi

namespace FileTree

variable {ε ε' α β : Type} {tree after : FileTree} {path : FilePath}

/-- The result of a command, and the tree of files that it leaves. -/
def perform (tree : FileTree) (command : ExceptT ε (StateM FileTree) α) :
    Except ε α × FileTree :=
  (command.run.run tree).run

section Perform

variable (tree : FileTree)

theorem perform_pure (value : α) :
    tree.perform (pure value : ExceptT ε (StateM FileTree) α) = (.ok value, tree) :=
  rfl

theorem perform_throw (error : ε) :
    tree.perform (throw error : ExceptT ε (StateM FileTree) α) = (.error error, tree) :=
  rfl

theorem perform_bind (first : ExceptT ε (StateM FileTree) α)
    (next : α → ExceptT ε (StateM FileTree) β) :
    tree.perform (first >>= next) =
      match tree.perform first with
      | (.ok value, after) => after.perform (next value)
      | (.error error, after) => (.error error, after) := by
  simp only [perform, ExceptT.run_bind, StateT.run_bind, Id.run_bind]
  rcases (first.run.run tree).run with ⟨- | -, -⟩ <;> rfl

theorem perform_map (f : α → β) (command : ExceptT ε (StateM FileTree) α) :
    tree.perform (f <$> command) = ((tree.perform command).1.map f, (tree.perform command).2) := by
  simp only [perform, ExceptT.run_map, StateT.run_map, Id.run_map]

theorem perform_bind_eq_ok_iff {tree after : FileTree} {first : ExceptT ε (StateM FileTree) α}
    {next : α → ExceptT ε (StateM FileTree) β} {result : β} :
    tree.perform (first >>= next) = (.ok result, after) ↔
      ∃ value between, tree.perform first = (.ok value, between) ∧
        between.perform (next value) = (.ok result, after) := by
  rw [perform_bind]
  rcases tree.perform first with ⟨error | value, between⟩
  · simp
  · simp

theorem perform_tryCatch (command : ExceptT ε (StateM FileTree) α)
    (handle : ε → ExceptT ε (StateM FileTree) α) :
    tree.perform (tryCatch command handle) =
      match tree.perform command with
      | (.ok value, after) => (.ok value, after)
      | (.error error, after) => after.perform (handle error) := by
  simp only [perform, ExceptT.run_tryCatch, StateT.run_bind, Id.run_bind]
  rcases (command.run.run tree).run with ⟨- | -, -⟩ <;> rfl

theorem perform_adapt (f : ε → ε') (command : ExceptT ε (StateM FileTree) α) :
    tree.perform (command.adapt f) =
      ((tree.perform command).1.mapError f, (tree.perform command).2) := rfl

theorem perform_liftM (operation : StateM FileTree α) :
    tree.perform (liftM operation : ExceptT ε (StateM FileTree) α) =
      (.ok (operation.run tree).run.1, (operation.run tree).run.2) := rfl

theorem perform_mk_pure (result : Except ε α) :
    tree.perform (ExceptT.mk (pure result)) = (result, tree) := rfl

theorem perform_lift (operation : StateM FileTree (Except SystemError α)) :
    tree.perform (Failure.lift operation) =
      ((operation.run tree).run.1.mapError .system, (operation.run tree).run.2) := rfl

theorem run_kind? (path : FilePath) :
    ((FileSystem.kind? path : StateM FileTree _).run tree).run =
      ((tree.find path).toOption.map FileEntry.kind, tree) := rfl

theorem run_read (path : FilePath) :
    ((FileSystem.read path : StateM FileTree _).run tree).run = (tree.read path, tree) := rfl

theorem run_createDirectories (path : FilePath) :
    ((FileSystem.createDirectories path : StateM FileTree _).run tree).run =
      tree.makeDirectories (tree.start path) path.segments := rfl

theorem run_write (path : FilePath) (content : String) :
    ((FileSystem.write path content : StateM FileTree _).run tree).run =
      match tree.write path content with
      | .ok after => (.ok (), after)
      | .error error => (.error error, tree) := by
  cases h : tree.write path content <;>
    simp [FileSystem.write, h]

theorem run_files (tree : FileTree) (path : FilePath) :
    ((FileSystem.files path : StateM FileTree _).run tree).run =
      (match tree.locate path with
        | .ok position => tree.filesBelow position
        | .error _ => [], tree) := rfl

end Perform

/-! ### Reading documents -/

/-- The UI schema of the document in a file, or the reason why there is none. -/
def uiSchema (tree : FileTree) (path : FilePath) : Except (NoResult Failure) UiSchema :=
  match tree.find path with
  | .error _ => .error (.error (.inputNotFound path.toText))
  | .ok _ =>
    match tree.read path with
    | .error error => .error (.error (.app (.system error)))
    | .ok content =>
      match Document.ofFileText path.extension? content with
      | .error error => .error (.error (.app (.document error)))
      | .ok document => document.compile.mapError (.map (.app <| .compilation ·))

theorem uiSchema_congr (h : after.find path = tree.find path) :
    after.uiSchema path = tree.uiSchema path := by
  rw [uiSchema, uiSchema, h, read_congr h]

theorem uiSchema_of_find {content : String} {document : Document}
    (hfind : tree.find path = .ok (.file (some content)))
    (hdocument : Document.ofFileText path.extension? content = .ok document) :
    tree.uiSchema path = document.compile.mapError (.map (.app <| .compilation ·)) := by
  simp only [uiSchema, hfind, read_of_find hfind, hdocument]

/-- Loading and compiling a document reads its file and changes nothing. -/
theorem perform_compiled (tree : FileTree) (path : FilePath) :
    tree.perform (do (← (Document.load path path.toText).adapt .error).compiled) =
      (tree.uiSchema path, tree) := by
  rw [uiSchema, Document.load]
  simp only [perform_bind, perform_adapt, perform_liftM, run_kind?]
  cases tree.find path with
  | error error => simp [Except.toOption, perform_throw, Except.mapError]
  | ok entry =>
    cases hread : tree.read path with
    | error error =>
      simp [Except.toOption, perform_bind, perform_liftM, run_read, hread, perform_throw,
        Except.mapError]
    | ok content =>
      cases hdocument : Document.ofFileText path.extension? content <;>
        simp [Except.toOption, perform_bind, perform_liftM, run_read, hread, perform_mk_pure,
          Document.compiled, hdocument, Except.mapError]

/-! ### Writing outputs -/

/-- Writing an output either fails, when no entry has changed, or leaves a file with the text and
all other entries as they were. -/
theorem perform_writeOutput_cases (tree : FileTree) (path : FilePath) (content : String) :
    (∃ error after, tree.perform (path.writeOutput content) = (.error (.system error), after) ∧
      tree.Keeps after fun _ => False) ∨
    ∃ after, tree.perform (path.writeOutput content) = (.ok (), after) ∧
      tree.Keeps after (· = tree.positionOf path) ∧
      after.find path = .ok (.file (some content)) := by
  have hwrite (made : FileTree) (hmade : tree.Keeps made fun _ => False) :
      (∃ error after,
        made.perform (Failure.lift (FileSystem.write path content)) =
          (.error (.system error), after) ∧ tree.Keeps after fun _ => False) ∨
      ∃ after, made.perform (Failure.lift (FileSystem.write path content)) = (.ok (), after) ∧
        tree.Keeps after (· = tree.positionOf path) ∧
        after.find path = .ok (.file (some content)) := by
    rw [perform_lift, run_write]
    cases hresult : made.write path content with
    | error error => exact .inl ⟨error, made, rfl, hmade⟩
    | ok after =>
      obtain ⟨hkeeps, hfind⟩ := Keeps.write hresult
      rw [hmade.positionOf_eq] at hkeeps
      exact .inr ⟨after, rfl, (hmade.mono fun _ => False.elim).trans hkeeps, hfind⟩
  rw [FilePath.writeOutput]
  simp only [perform_bind, perform_liftM, run_kind?]
  split
  · rw [perform_bind, perform_lift, run_createDirectories]
    have hmade := Keeps.makeDirectories tree (tree.start path.parent) path.parent.segments
    generalize tree.makeDirectories (tree.start path.parent) path.parent.segments = made at hmade
    obtain ⟨result, made⟩ := made
    cases result with
    | error error => exact .inl ⟨error, made, rfl, hmade⟩
    | ok => exact hwrite made hmade
  · exact hwrite tree (.refl tree _)

end FileTree

/-! ### Texts of UI schemas -/

theorem Json.length_indentedEntries_pos (depth : Nat) (entry : String × Json)
    (rest : List (String × Json)) :
    0 < (indentedEntries depth (entry :: rest)).length := by
  have hcolon : ": ".length = 2 := rfl
  cases rest <;> simp only [indentedEntries, String.length_append] <;> omega

/-- A UI schema with entities is not rendered as one without. -/
theorem OutputFormat.render_json_ne_of_entities_ne_nil {ui : UiSchema} (h : ui.entities ≠ []) :
    json.render ui ≠ json.render { ui with entities := [] } := by
  obtain ⟨first, rest, hentities⟩ := List.exists_cons_of_ne_nil h
  rw [render, render, UiSchema.toJson, UiSchema.toJson, hentities]
  simp only [Json.indented, Json.indentedAt, Json.indentedEntries, List.map_cons, List.map_nil,
    String.append_assoc, ne_eq, String.append_right_inj]
  intro heq
  -- The texts agree up to the braces around the entities, and only one has entries in them.
  have hlength := congrArg String.length heq
  have hpos := Json.length_indentedEntries_pos (0 + 1 + 1) (first.1, first.2.toJson)
    (rest.map fun entry => (entry.1, entry.2.toJson))
  have hbraces : "\x7b\x7d".length = "\x7b".length + "\x7d".length := rfl
  simp only [String.length_append] at hlength
  omega

end CrudUi
