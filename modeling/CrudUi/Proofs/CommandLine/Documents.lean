import CrudUi.Proofs.CommandLine.Batch
import CrudUi.Proofs.CommandLine.Edits
import CrudUi.Proofs.CommandLine.Listing
import CrudUi.Proofs.CommandLine.Outputs

/-!
# Documents and their outputs

The name of a document is a stem and one of three extensions, and its output is named for the stem.
An output has the extension of a document itself, so one that is written below the directory of the
documents is listed as a document there; it is never compiled
(`FileTree.HasDirectory.uiSchema_of_holdsOutput`).

## Main definitions

* `FileTree.HasDirectory` : a well-formed tree with a directory at a path.
* `FileTree.HoldsOutput` : a file that holds an output.
* `FileTree.outputPositions` : the positions at which the outputs of the documents are written.
-/

namespace CrudUi

/-! ### Directories of documents -/

namespace FileTree

variable {tree after : FileTree} {path : FilePath} {position names : List String}
  {entry : FileEntry} {content : Option String} {changed : List String → Prop}

theorem entry?_of_find (h : tree.find path = .ok entry) :
    tree.entry? (tree.positionOf path) = some entry := by
  obtain ⟨position, hlocate, hentry, -⟩ := find_eq_ok_iff.mp h
  rwa [← eq_positionOf_of_locate hlocate]

/-- A well-formed tree in which a path leads to a directory. -/
structure HasDirectory (tree : FileTree) (path : FilePath) : Prop where
  wellFormed : tree.WellFormed
  find_eq : tree.find path = .ok .directory

/-- The file at a position holds the text of a UI schema that was compiled. -/
def HoldsOutput (tree : FileTree) (position : List String) : Prop :=
  ∃ ui : UiSchema, ui.version = 1 ∧
    tree.entry? position = some (.file (some (OutputFormat.json.render ui)))

namespace HasDirectory

theorem edited (h : tree.HasDirectory path) (hedited : Edited changed tree after) :
    after.HasDirectory path :=
  ⟨hedited.wellFormed h.wellFormed, hedited.keeps.find h.find_eq (.inl rfl)⟩

theorem find_join (h : tree.HasDirectory path)
    (hentry : tree.entry? (tree.positionOf path ++ names) = some entry) :
    tree.find (path.join names) = .ok entry :=
  h.wellFormed.find_join h.find_eq hentry

theorem isName (h : tree.HasDirectory path)
    (hentry : tree.entry? (tree.positionOf path ++ names) = some entry) :
    ∀ name ∈ names, IsName name := fun name hname =>
  h.wellFormed.isName_of_entry hentry name (List.mem_append_right _ hname)

/-- A file below the directory has names that lead to it. -/
theorem exists_eq_concat (h : tree.HasDirectory path)
    (hentry : tree.entry? (tree.positionOf path ++ names) = some (.file content)) :
    ∃ directory name, names = directory ++ [name] := by
  rcases names.eq_nil_or_concat' with rfl | hconcat
  · rw [List.append_nil, entry?_of_find h.find_eq] at hentry
    cases hentry
  · exact hconcat

/-- A document in whose place there is an output has no version marker. -/
theorem uiSchema_of_holdsOutput (h : tree.HasDirectory path)
    (hholds : tree.HoldsOutput (tree.positionOf path ++ names))
    (hextension : names.getLast?.bind FileName.extension? = some "json") :
    tree.uiSchema (path.join names) =
      .error (.error (.app (.compilation .missingVersion))) := by
  obtain ⟨ui, hversion, hentry⟩ := hholds
  obtain ⟨directory, name, rfl⟩ := h.exists_eq_concat hentry
  have hname : IsName name := h.isName hentry name (by simp)
  have hsegments : (path.join (directory ++ [name])).segments =
      (path.segments ++ directory) ++ [name] :=
    (List.append_assoc ..).symm
  refine uiSchema_of_find_render (h.find_join hentry) (by rw [hversion]; decide) ?_
  rw [FilePath.extension?_of_concat hsegments ⟨hname.ne_here, hname.ne_above⟩]
  simpa using hextension

/-- A file that is kept is the same document. -/
theorem uiSchema_congr (h : tree.HasDirectory path) (hafter : after.HasDirectory path)
    (hposition : after.positionOf path = tree.positionOf path)
    (hentry : tree.entry? (tree.positionOf path ++ names) = some entry)
    (hentry' : after.entry? (tree.positionOf path ++ names) = some entry) :
    after.uiSchema (path.join names) = tree.uiSchema (path.join names) := by
  rw [← hposition] at hentry'
  exact FileTree.uiSchema_congr ((hafter.find_join hentry').trans (h.find_join hentry).symm)

theorem mem_documents_iff (h : tree.HasDirectory path) :
    names ∈ tree.documents path ↔ Batch.isDocument names ∧
      ∃ content, tree.entry? (tree.positionOf path ++ names) = some (.file content) :=
  h.wellFormed.mem_documents_iff h.find_eq

theorem isName_of_mem_documents (h : tree.HasDirectory path) (hmem : names ∈ tree.documents path) :
    ∀ name ∈ names, IsName name :=
  h.wellFormed.isName_of_mem_documents h.find_eq hmem

theorem nodup_documents (h : tree.HasDirectory path) : (tree.documents path).Nodup :=
  h.wellFormed.nodup_documents h.find_eq

theorem pairwise_documents (h : tree.HasDirectory path) :
    (tree.documents path).Pairwise (isListedBefore · ·) := by
  rw [documents_eq h.find_eq]
  exact (tree.pairwise_filesBelow _).filter _

end HasDirectory

end FileTree

/-! ### Names of documents and outputs -/

namespace Batch

variable {tree : FileTree} {options : BatchOptions} {output : FilePath}
  {names other directory : List String} {name : String}

theorem isDocument_of_extension? (h : names.getLast?.bind FileName.extension? = some "json") :
    isDocument names := by
  rw [isDocument, h]
  rfl

/-- The last name of a document is a stem with an extension. -/
theorem eq_concat_of_isDocument (h : isDocument names) :
    ∃ extension ∈ documentExtensions, names.getLast?.bind FileName.extension? = some extension ∧
      names = names.dropLast ++ [FileName.stem (names.getLast?.getD "") ++ "." ++ extension] := by
  unfold isDocument at h
  split at h
  · rename_i extension hextension
    obtain ⟨name, hlast, hname⟩ := Option.bind_eq_some_iff.mp hextension
    refine ⟨extension, of_decide_eq_true h, hextension, ?_⟩
    rw [hlast, Option.getD_some, ← FileName.eq_append_of_extension? hname]
    exact (List.dropLast_append_getLast? name hlast).symm
  · cases h

theorem segments_target (output : FilePath) (names : List String) :
    (target output names).segments = (output.segments ++ names.dropLast) ++
      [FileName.stem (names.getLast?.getD "") ++ ".ui.json"] :=
  (List.append_assoc ..).symm

theorem extension?_append_uiJson (stem : String) :
    FileName.extension? (stem ++ ".ui.json") = some "json" := by
  have hsplit : stem ++ ".ui.json" = stem ++ ".ui" ++ "." ++ "json" := by
    rw [String.append_assoc, String.append_assoc]
    rfl
  rw [hsplit]
  refine FileName.extension?_append (fun hempty => ?_) (by decide)
  simpa using congrArg (fun text : String => text.toList.length) hempty

theorem separated_target (houtput : output.Separated) (hdocument : isDocument names)
    (hnames : ∀ name ∈ names, FileTree.IsName name) : (target output names).Separated := by
  obtain ⟨extension, -, -, heq⟩ := eq_concat_of_isDocument hdocument
  intro segment hsegment
  rw [segments_target, List.mem_append, List.mem_append, List.mem_singleton] at hsegment
  rcases hsegment with (hsegment | hsegment) | rfl
  · exact houtput segment hsegment
  · have hname := hnames segment (List.dropLast_subset names hsegment)
    exact ⟨hname.ne_empty, hname.slash_notMem⟩
  · have hlast :=
      (hnames _ (heq ▸ List.mem_append_right _ (List.mem_singleton_self _))).slash_notMem
    simp only [String.toList_append, List.mem_append, not_or] at hlast
    refine ⟨fun hempty => ?_, ?_⟩
    · simpa using congrArg (fun text : String => text.toList.length) hempty
    · simp [hlast.1.1]

/-- A document in the place of an output has the extension of the output. -/
theorem extension?_of_positionOf_target {input : List String} (hnames : names ≠ [])
    (hother : ∀ name ∈ other, FileTree.IsName name)
    (h : input ++ names = tree.positionOf (target output other)) :
    names.getLast?.bind FileName.extension? = some "json" := by
  have hlast := congrArg List.getLast? h
  rw [positionOf_target tree output hother, List.getLast?_append_of_ne_nil _ hnames,
    ← List.append_assoc, List.getLast?_concat] at hlast
  rw [hlast, Option.bind_some, extension?_append_uiJson]

/-- Of the documents that share an output the one with the extension `json` comes first. -/
theorem isListedBefore_of_sharesOutput (h : SharesOutput names other) (hnames : isDocument names)
    (hother : isDocument other)
    (hextension : names.getLast?.bind FileName.extension? = some "json") :
    isListedBefore names other := by
  obtain ⟨extension, -, hnamesExtension, hnamesEq⟩ := eq_concat_of_isDocument hnames
  obtain ⟨extension', hmem, -, hotherEq⟩ := eq_concat_of_isDocument hother
  obtain rfl : extension = "json" := Option.some.inj (hnamesExtension.symm.trans hextension)
  rw [hnamesEq, hotherEq, ← h.1, ← h.2, isListedBefore_append_left, isListedBefore_cons_iff]
  have hle : ∀ extension ∈ documentExtensions, extension = "json" ∨ "json" < extension := by
    decide
  rcases hle extension' hmem with rfl | hlt
  · exact .inr ⟨rfl, rfl⟩
  · left
    rw [String.lt_iff_toList_lt] at hlt ⊢
    simp only [String.toList_append]
    exact List.append_left_lt hlt

end Batch

/-- The positions at which the outputs of the documents are written. -/
def FileTree.outputPositions (tree : FileTree) (options : BatchOptions) : List (List String) :=
  (tree.documents options.input).map fun names =>
    tree.positionOf (Batch.target options.output names)

theorem FileTree.mem_outputPositions_iff {tree : FileTree} {options : BatchOptions}
    {position : List String} :
    position ∈ tree.outputPositions options ↔ ∃ names ∈ tree.documents options.input,
      position = tree.positionOf (Batch.target options.output names) := by
  simp only [outputPositions, List.mem_map, eq_comm]

end CrudUi
