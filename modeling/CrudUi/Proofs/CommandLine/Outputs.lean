import CrudUi.Proofs.CommandLine.Commands
import CrudUi.Proofs.Compile.Success
import CrudUi.Proofs.Decode.Records
import CrudUi.Proofs.Ui.Texts

/-!
# Outputs as documents

The text of a JSON value is read as the document that the value is (`Document.ofJsonText_indented`).
The text of a UI schema is itself the text of a document, one in which nothing is said: a reader of
documents passes over the members of a UI schema.  Such a document has no version marker, so where
the file of a document holds an output the document is never compiled
(`FileTree.uiSchema_of_find_render`).
-/

namespace CrudUi

theorem Document.ofJsonText_indented {value : Json} (h : value.HasNaturals) :
    Document.ofJsonText value.indented =
      (Document.read Json.Placed.source ⟨value.node, Json.maxDepth⟩).mapError .ofJsonText := by
  rw [Document.ofJsonText, Json.Node.ofText_indented h]
  dsimp only
  cases Document.read Json.Placed.source ⟨value.node, Json.maxDepth⟩ <;> rfl

theorem Document.read_node_toJson (ui : UiSchema) :
    Document.read Json.Placed.source ⟨ui.toJson.node, Json.maxDepth⟩ = .ok {} := by
  have hskip (value : Json) (depth : ℕ) : Json.Placed.source.skip ⟨value.node, depth⟩ = .ok () := by
    simp [Json.Placed.source, Json.Placed.lift, Json.skip_node, Except.mapError]
  have hrecord : Json.Placed.source.record Document.shape ⟨ui.toJson.node, Json.maxDepth⟩ = .ok {
      entries := [(.ok "version", ⟨(Json.ofNat ui.version).node, 126⟩),
        (.ok "entities", ⟨(Json.object (ui.entities.map fun entry =>
          (entry.1, entry.2.toJson))).node, 126⟩)]
      finish := .ok (), length := none } := rfl
  rw [Document.read, Source.readRecord, hrecord]
  simp only [bind, Except.bind]
  rw [Source.fillFields_cons_of_skip (by decide) (hskip _ _),
    Source.fillFields_cons_of_skip (by decide) (hskip _ _)]
  rfl

theorem Document.ofJsonText_render {ui : UiSchema} (h : ui.version ≤ Json.Numeral.maxWord) :
    Document.ofJsonText (OutputFormat.json.render ui) = .ok {} := by
  rw [OutputFormat.render, Document.ofJsonText_indented (UiSchema.hasNaturals_toJson h),
    Document.read_node_toJson]
  rfl

/-- A document that says nothing lacks the version marker. -/
theorem Document.compile_empty : Document.compile {} = .error (.error .missingVersion) := rfl

theorem Document.version_of_compile {document : Document} {ui : UiSchema}
    (h : document.compile = .ok ui) : ui.version = 1 := by
  obtain ⟨-, -, h⟩ := bind_eq_ok_iff.mp h
  obtain ⟨entities, -, h⟩ := bind_eq_ok_iff.mp h
  rw [← pure_eq_ok_iff.mp h]

namespace FileTree

variable {tree : FileTree} {path : FilePath} {ui : UiSchema}

theorem version_of_uiSchema (h : tree.uiSchema path = .ok ui) : ui.version = 1 := by
  rw [uiSchema] at h
  split at h
  · cases h
  · split at h
    · cases h
    · split at h
      · cases h
      · rename_i document _
        exact Document.version_of_compile (mapError_eq_ok_iff.mp h)

/-- An output in the place of a document has no version marker. -/
theorem uiSchema_of_find_render
    (hfind : tree.find path = .ok (.file (some (OutputFormat.json.render ui))))
    (hversion : ui.version ≤ Json.Numeral.maxWord)
    (hextension : path.extension? = some "json") :
    tree.uiSchema path = .error (.error (.app (.compilation .missingVersion))) := by
  have hdocument : Document.ofFileText path.extension? (OutputFormat.json.render ui) = .ok {} := by
    rw [Document.ofFileText, if_pos hextension, Document.ofJsonText_render hversion]
  rw [uiSchema_of_find hfind hdocument, Document.compile_empty]
  rfl

end FileTree

/-! ### The text of a grove -/

/-- Objects with one member each, one inside the other. -/
def Json.nested (names : List String) (value : Json) : Json :=
  names.foldr (fun name value => .object [(name, value)]) value

theorem Json.hasNaturals_nested {value : Json} (h : value.HasNaturals) (names : List String) :
    (nested names value).HasNaturals := by
  induction names with
  | nil => exact h
  | cons name rest ih => exact .object (List.forall_mem_singleton.mpr ih)

namespace Document

/-- A list of trees. -/
def treeListJson : Json :=
  .object [("type", .string "array"),
    ("items", .nested ["allOf"] (.array [.nested ["$ref"] (.string "#/components/schemas/Tree")]))]

/-- A document on which compiling has no end. -/
def groveJson : Json :=
  .object [("openapi", .string "3.0.0"),
    ("paths", .nested ["/forests", "get", "responses", "200", "content", "application/json",
      "schema", "$ref"] (.string "#/components/schemas/Forest")),
    ("components", .nested ["schemas"]
      (.object [("Forest", treeListJson), ("Tree", treeListJson)]))]

theorem hasNaturals_groveJson : groveJson.HasNaturals := by
  have htrees : treeListJson.HasNaturals := by
    refine .object (List.forall_mem_cons.mpr ⟨.string _, List.forall_mem_singleton.mpr ?_⟩)
    exact Json.hasNaturals_nested
      (.array (List.forall_mem_singleton.mpr (Json.hasNaturals_nested (.string _) _))) _
  refine .object (List.forall_mem_cons.mpr ⟨.string _, List.forall_mem_cons.mpr
    ⟨Json.hasNaturals_nested (.string _) _, List.forall_mem_singleton.mpr ?_⟩⟩)
  exact Json.hasNaturals_nested
    (.object (List.forall_mem_cons.mpr ⟨htrees, List.forall_mem_singleton.mpr htrees⟩)) _

theorem ofJsonText_grove : ofJsonText groveJson.indented = .ok grove := by
  have hread : (read Json.Placed.source ⟨groveJson.node, Json.maxDepth⟩).toOption = some grove := by
    decide +kernel
  rw [ofJsonText_indented hasNaturals_groveJson, toOption_eq_some_iff.mp hread]
  rfl

end Document

end CrudUi
