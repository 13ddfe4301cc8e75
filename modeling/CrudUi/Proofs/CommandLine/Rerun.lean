import CrudUi.Proofs.CommandLine.Documents

/-!
# Compiling a directory again

If no document fails, none of them has been compiled from the output of another one: an output holds
no version marker, so a document that it replaces before its turn fails
(`Batch.failed_ne_nil_of_holdsOutput`).  Each output is then there afterwards, as the last of the
documents that share it was compiled (`Batch.AllCompiled`).

Compiling the directory again writes outputs over outputs (`Batch.Rewritten`), and at the end every
file is what it was before.  The outputs that lie below the directory of the documents are listed
there the second time, and those fail.  The run is the same as before exactly if there are none
(`Batch.rerun_of_failed_eq_nil`).

## Main definitions

* `Batch.Unfailing` : what holds along a run without failures.
* `Batch.AllCompiled` : what such a run leaves.
* `Batch.Rewritten` : that outputs were written over outputs.
* `Batch.failureAgain?` : what a document comes to the second time.
-/

namespace CrudUi.Batch

open FileTree

variable {tree between after : FileTree} {options : BatchOptions} {input output : FilePath}
  {names other position : List String} {documents : List (List String)}
  {result : Except Failure FilePath}

/-! ### What one document changes -/

/-- Compiling a document makes directories, and a file for its output. -/
theorem edited_of_perform_compileOne {run : Except (NoResult Failure) (Except Failure FilePath)}
    (htree : tree.WellFormed) (houtput : output.Separated) (hdocument : isDocument names)
    (hnames : ∀ name ∈ names, IsName name)
    (hrun : tree.perform (settle (compileOne input output names)) = (run, after)) :
    Edited (· = tree.positionOf (target output names)) tree after := by
  obtain rfl : (tree.perform (settle (compileOne input output names))).2 = after :=
    congrArg Prod.snd hrun
  rw [perform_compileOne_eq]
  cases tree.uiSchema (input.join names) with
  | error reason => cases reason <;> exact .refl
  | ok ui =>
    have hwrite := edited_writeOutput htree (separated_target houtput hdocument hnames)
      (segments_target output names) (OutputFormat.json.render ui)
    dsimp only
    generalize tree.perform ((target output names).writeOutput (OutputFormat.json.render ui)) =
      written at hwrite ⊢
    obtain ⟨_ | _, after⟩ := written <;> exact hwrite

/-- The file that is written holds an output. -/
theorem Step.holdsOutput_target {written : FilePath}
    (h : Step tree input output names (.ok written) after) :
    after.HoldsOutput (tree.positionOf (target output names)) := by
  cases h with
  | written ui after hschema hkeeps hfind =>
    have hentry := entry?_of_find hfind
    rw [hkeeps.positionOf_eq] at hentry
    exact ⟨ui, version_of_uiSchema hschema, hentry⟩

/-- A file that holds an output holds one afterwards. -/
theorem Step.holdsOutput (h : Step tree input output names result after)
    (hholds : tree.HoldsOutput position) : after.HoldsOutput position := by
  obtain ⟨ui, hversion, hentry⟩ := id hholds
  cases h with
  | failed => exact hholds
  | unwritten _ _ _ _ hkeeps =>
    exact ⟨ui, hversion, hkeeps.entry?_eq _ _ hentry (.inr id)⟩
  | written ui' after hschema hkeeps hfind =>
    by_cases hposition : position = tree.positionOf (target output names)
    · rw [hposition]
      exact (Step.written ui' after hschema hkeeps hfind).holdsOutput_target
    · exact ⟨ui, hversion, hkeeps.entry?_eq _ _ hentry (.inr hposition)⟩

/-! ### A run without failures -/

theorem failed_add_of_ne_nil {report : BatchReport} (h : report.failed ≠ [])
    (document : FilePath) (result : Except Failure FilePath) :
    (report.add document result).failed ≠ [] := by
  cases result with
  | error failure => exact List.cons_ne_nil _ _
  | ok written => exact h

/-- A run fails if an output lies in the place of one of the documents. -/
theorem failed_ne_nil_of_holdsOutput {report : BatchReport} (hinput : tree.HasDirectory input)
    (houtput : output.Separated)
    (hdocuments : ∀ names ∈ documents, isDocument names ∧ ∀ name ∈ names, IsName name)
    (hrun : tree.perform (compileAll input output documents) = (.ok report, after))
    (hmem : names ∈ documents)
    (hextension : names.getLast?.bind FileName.extension? = some "json")
    (hholds : tree.HoldsOutput (tree.positionOf input ++ names)) : report.failed ≠ [] := by
  induction documents generalizing tree report with
  | nil => exact absurd hmem List.not_mem_nil
  | cons first rest ih =>
    obtain ⟨⟨hdocument, hnames⟩, hrest⟩ := List.forall_mem_cons.mp hdocuments
    obtain ⟨result, between, others, hfirst, hothers, rfl⟩ :=
      perform_compileAll_cons_eq_ok_iff.mp hrun
    have hedited := edited_of_perform_compileOne hinput.wellFormed houtput hdocument hnames hfirst
    rcases List.mem_cons.mp hmem with rfl | hmem
    · rw [perform_compileOne_eq, hinput.uiSchema_of_holdsOutput hholds hextension] at hfirst
      obtain rfl := Except.ok.inj (Prod.mk.inj hfirst).1
      exact List.cons_ne_nil _ _
    · refine failed_add_of_ne_nil (ih (hinput.edited hedited) hrest hothers hmem ?_) _ _
      rw [hedited.positionOf_eq]
      exact (step_of_perform_compileOne hfirst).2.holdsOutput hholds

/-- Where no document fails, the first one compiles, and none of the others lies in the place of its
output. -/
theorem exists_written_of_failed_eq_nil {rest : List (List String)} {report : BatchReport}
    (hinput : tree.HasDirectory input) (houtput : output.Separated)
    (hdocuments : ∀ other ∈ names :: rest, isDocument other ∧
      ∃ content, tree.entry? (tree.positionOf input ++ other) = some (.file content))
    (hrun : tree.perform (compileAll input output (names :: rest)) = (.ok report, after))
    (hfailed : report.failed = []) :
    ∃ written between others,
      tree.perform (settle (compileOne input output names)) = (.ok (.ok written), between) ∧
      between.perform (compileAll input output rest) = (.ok others, after) ∧ others.failed = [] ∧
      ∀ other ∈ rest, between.uiSchema (input.join other) = tree.uiSchema (input.join other) := by
  have hnames : ∀ other ∈ names :: rest, isDocument other ∧ ∀ name ∈ other, IsName name := by
    intro other hother
    obtain ⟨hdocument, content, hentry⟩ := hdocuments other hother
    exact ⟨hdocument, hinput.isName hentry⟩
  obtain ⟨⟨hdocument, hisName⟩, hothers⟩ := List.forall_mem_cons.mp hnames
  obtain ⟨result, between, others, hfirst, hperform, rfl⟩ :=
    perform_compileAll_cons_eq_ok_iff.mp hrun
  have hnext := edited_of_perform_compileOne hinput.wellFormed houtput hdocument hisName hfirst
  cases result with
  | error failure => exact absurd hfailed (List.cons_ne_nil _ _)
  | ok written =>
    have hfailed : others.failed = [] := hfailed
    refine ⟨written, between, others, hfirst, hperform, hfailed, fun other hother => ?_⟩
    obtain ⟨-, content, hentry⟩ := hdocuments other (List.mem_cons_of_mem _ hother)
    by_cases hplace : tree.positionOf input ++ other = tree.positionOf (target output names)
    · -- An output in the place of a later document would make that document fail.
      obtain ⟨directory, name, rfl⟩ := hinput.exists_eq_concat hentry
      have hextension := extension?_of_positionOf_target (by simp) hisName hplace
      have hholds := (step_of_perform_compileOne hfirst).2.holdsOutput_target
      rw [← hplace, ← hnext.positionOf_eq] at hholds
      exact absurd hfailed (failed_ne_nil_of_holdsOutput (hinput.edited hnext) houtput hothers
        hperform hother hextension hholds)
    · exact hinput.uiSchema_congr (hinput.edited hnext) (hnext.positionOf_eq input) hentry
        (hnext.keeps.entry?_eq _ _ hentry (.inr hplace))

/-- What holds along a run without failures, before the documents `rest`. -/
structure Unfailing (tree after : FileTree) (input output : FilePath)
    (documents : List (List String)) (between : FileTree) (rest : List (List String)) : Prop where
  edited : Edited (∃ names ∈ documents, · = tree.positionOf (target output names)) tree between
  subset : rest ⊆ documents
  exists_report : ∃ report,
    between.perform (compileAll input output rest) = (.ok report, after) ∧ report.failed = []

theorem Unfailing.step {rest : List (List String)}
    (h : Unfailing tree after input output documents between (names :: rest))
    (hinput : tree.HasDirectory input) (houtput : output.Separated)
    (hdocuments : ∀ names ∈ documents, isDocument names ∧
      ∃ content, tree.entry? (tree.positionOf input ++ names) = some (.file content)) :
    ∃ written next,
      between.perform (settle (compileOne input output names)) = (.ok (.ok written), next) ∧
      Unfailing tree after input output documents next rest ∧
      ∀ other ∈ rest, next.uiSchema (input.join other) = between.uiSchema (input.join other) := by
  obtain ⟨hmem, hrest⟩ := List.cons_subset.mp h.subset
  obtain ⟨report, hperform, hfailed⟩ := h.exists_report
  have hbetween := hinput.edited h.edited
  have hfile : ∀ other ∈ names :: rest, isDocument other ∧
      ∃ content, between.entry? (between.positionOf input ++ other) = some (.file content) := by
    intro other hother
    obtain ⟨hdocument, content, hentry⟩ := hdocuments other (h.subset hother)
    rw [h.edited.positionOf_eq]
    exact ⟨hdocument, h.edited.exists_file hentry⟩
  obtain ⟨hdocument, content, hentry⟩ := hfile names List.mem_cons_self
  obtain ⟨written, next, others, hfirst, hothers, hfailed, hschemas⟩ :=
    exists_written_of_failed_eq_nil hbetween houtput hfile hperform hfailed
  have hnext := edited_of_perform_compileOne hbetween.wellFormed houtput hdocument
    (hbetween.isName hentry) hfirst
  refine ⟨written, next, hfirst, ⟨h.edited.trans (hnext.mono ?_), hrest, others, hothers, hfailed⟩,
    hschemas⟩
  rintro position rfl
  exact ⟨names, hmem, h.edited.positionOf_eq _⟩

/-- If no document fails, each was compiled as it stood at the start: none of them lies where an
output was written before its turn. -/
theorem exists_ran_of_failed_eq_nil {report : BatchReport} (hinput : tree.HasDirectory input)
    (houtput : output.Separated) (hnodup : documents.Nodup)
    (hdocuments : ∀ names ∈ documents, isDocument names ∧
      ∃ content, tree.entry? (tree.positionOf input ++ names) = some (.file content))
    (hrun : tree.perform (compileAll input output documents) = (.ok report, after))
    (hfailed : report.failed = []) :
    ∃ failure?, Ran tree after input output documents failure? report ∧
      Edited (∃ names ∈ documents, · = tree.positionOf (target output names)) tree after ∧
      ∀ names ∈ documents, failure? names = none := by
  obtain ⟨report', after', failure?, hperform, hran, hend, hnone⟩ := exists_ran_of_invariant
    (Unfailing tree after input output documents) (fun _ => (· = none))
    (fun between names rest h => by
      obtain ⟨written, next, hfirst, hnext, hschemas⟩ := h.step hinput houtput hdocuments
      exact ⟨_, next, hfirst, rfl, hnext, hschemas⟩)
    hnodup ⟨.refl, List.Subset.refl _, report, hrun, hfailed⟩
  obtain ⟨hreport, rfl⟩ := Prod.mk.inj (hperform.symm.trans hrun)
  obtain rfl := Except.ok.inj hreport
  exact ⟨failure?, hran, hend.edited, hnone⟩

/-- What a run without failures leaves. -/
structure AllCompiled (tree after : FileTree) (options : BatchOptions) : Prop where
  hasDirectory : tree.HasDirectory options.input
  edited : Edited (· ∈ tree.outputPositions options) tree after
  /-- Every document has a UI schema. -/
  compiles : ∀ names ∈ tree.documents options.input, ∃ ui,
    tree.uiSchema (options.input.join names) = .ok ui
  /-- Every output can be written again. -/
  locate_target : ∀ names ∈ tree.documents options.input, ∃ position,
    after.locate (target options.output names) = .ok position
  /-- Of the documents with one output, the last one is in the file. -/
  exists_last : ∀ position ∈ tree.outputPositions options,
    ∃ last ∈ tree.documents options.input, ∃ ui,
      tree.positionOf (target options.output last) = position ∧
      (∀ other ∈ tree.documents options.input,
        tree.positionOf (target options.output other) = position → isListedBefore other last) ∧
      tree.uiSchema (options.input.join last) = .ok ui ∧
      after.entry? position = some (.file (some (OutputFormat.json.render ui)))

/-- The last of the documents with one output comes last in the order of the listing. -/
theorem Ran.exists_last_of_pairwise {failure? : List String → Option Failure} {report : BatchReport}
    (hran : Ran tree after input output documents failure? report)
    (hsorted : documents.Pairwise (isListedBefore · ·)) (hmem : names ∈ documents)
    (hfailure : failure? names = none) :
    ∃ last ∈ documents, ∃ ui, failure? last = none ∧
      tree.positionOf (target output last) = tree.positionOf (target output names) ∧
      (∀ other ∈ documents, failure? other = none →
        tree.positionOf (target output other) = tree.positionOf (target output names) →
        isListedBefore other last) ∧
      tree.uiSchema (input.join last) = .ok ui ∧
      after.entry? (tree.positionOf (target output names)) =
        some (.file (some (OutputFormat.json.render ui))) := by
  obtain ⟨before, last, behind, ui, rfl, hlast, hposition, hbehind, hui, hfind⟩ :=
    hran.exists_last hmem hfailure
  have hentry := entry?_of_find hfind
  rw [hran.keeps.positionOf_eq, hposition] at hentry
  refine ⟨last, by simp, ui, hlast, hposition, fun other hother hnone heq => ?_, hui, hentry⟩
  rcases List.mem_append.mp hother with hother | hother
  · exact (List.pairwise_append.mp hsorted).2.2 other hother last List.mem_cons_self
  · rcases List.mem_cons.mp hother with rfl | hother
    · simpa using isListedBefore_total other other
    · exact absurd heq (hbehind other hother hnone)

theorem find_eq_directory_of_perform_run {report : BatchReport}
    (hrun : tree.perform options.run = (.ok report, after)) :
    tree.find options.input = .ok .directory := by
  rw [BatchOptions.run] at hrun
  simp only [perform_bind, perform_liftM, run_kind?] at hrun
  by_cases hkind : (tree.find (FilePath.ofText options.inputDirectory)).toOption.map
      FileEntry.kind = some .directory
  · rw [BatchOptions.input]
    rcases hfind : tree.find (FilePath.ofText options.inputDirectory) with error | ⟨content | -⟩
    · rw [hfind] at hkind
      cases hkind
    · rw [hfind] at hkind
      cases hkind
    · rfl
  · rw [if_pos hkind, perform_bind, perform_throw] at hrun
    cases hrun

theorem allCompiled_of_failed_eq_nil {report : BatchReport} (htree : tree.WellFormed)
    (hrun : tree.perform options.run = (.ok report, after)) (hfailed : report.failed = []) :
    AllCompiled tree after options ∧
      report.compiled = (tree.documents options.input).map (target options.output) := by
  have hinput : tree.HasDirectory options.input := ⟨htree, find_eq_directory_of_perform_run hrun⟩
  have houtput : options.output.Separated := FilePath.separated_ofText _
  rw [perform_run hinput.find_eq] at hrun
  obtain ⟨failure?, hran, hedited, hnone⟩ := exists_ran_of_failed_eq_nil hinput houtput
    hinput.nodup_documents (fun names hmem => hinput.mem_documents_iff.mp hmem) hrun hfailed
  have hnames : ∀ names ∈ tree.documents options.input, ∀ name ∈ names, IsName name :=
    fun _ => hinput.isName_of_mem_documents
  refine ⟨⟨hinput, hedited.mono fun _ => mem_outputPositions_iff.mpr, ?_, ?_, ?_⟩, ?_⟩
  · intro names hmem
    cases hui : tree.uiSchema (options.input.join names) with
    | ok ui => exact ⟨ui, rfl⟩
    | error reason =>
      cases reason with
      | endless => exact absurd hui (hran.ne_endless names hmem)
      | error failure =>
        have hsome := hran.failure_of_error names hmem failure hui
        rw [hnone names hmem] at hsome
        cases hsome
  · intro names hmem
    obtain ⟨before, last, behind, ui, hsplit, -, hposition, -, -, hfind⟩ :=
      hran.exists_last hmem (hnone names hmem)
    have hlast : last ∈ tree.documents options.input := by rw [hsplit]; simp
    have hshares := sharesOutput_of_positionOf_eq (hnames last hlast) (hnames names hmem) hposition
    obtain ⟨position, hlocate, -⟩ := find_eq_ok_iff.mp hfind
    exact ⟨position, hshares.target_eq options.output ▸ hlocate⟩
  · intro position hposition
    obtain ⟨names, hmem, rfl⟩ := mem_outputPositions_iff.mp hposition
    obtain ⟨last, hlast, ui, -, heq, hgreatest, hui, hentry⟩ :=
      hran.exists_last_of_pairwise hinput.pairwise_documents hmem (hnone names hmem)
    exact ⟨last, hlast, ui, heq, fun other hother => hgreatest other hother (hnone other hother),
      hui, hentry⟩
  · rw [hran.compiled_eq, List.filter_eq_self.mpr fun names hmem => by rw [hnone names hmem]; rfl]

namespace AllCompiled

theorem hasDirectory_after (h : AllCompiled tree after options) :
    after.HasDirectory options.input :=
  h.hasDirectory.edited h.edited

theorem holdsOutput (h : AllCompiled tree after options)
    (hposition : position ∈ tree.outputPositions options) : after.HoldsOutput position := by
  obtain ⟨last, -, ui, -, -, hui, hentry⟩ := h.exists_last position hposition
  exact ⟨ui, version_of_uiSchema hui, hentry⟩

/-- A document that lies where an output was written. -/
theorem extension?_of_mem (h : AllCompiled tree after options)
    (hposition : tree.positionOf options.input ++ names ∈ tree.outputPositions options) :
    names.getLast?.bind FileName.extension? = some "json" := by
  obtain ⟨ui, -, hentry⟩ := h.holdsOutput hposition
  obtain ⟨other, hother, heq⟩ := mem_outputPositions_iff.mp hposition
  rw [← h.edited.positionOf_eq] at hentry
  obtain ⟨directory, name, rfl⟩ := h.hasDirectory_after.exists_eq_concat hentry
  exact extension?_of_positionOf_target (by simp)
    (h.hasDirectory.isName_of_mem_documents hother) heq

/-- The documents afterwards are those from before and the outputs among them. -/
theorem mem_documents_iff (h : AllCompiled tree after options) :
    names ∈ after.documents options.input ↔ names ∈ tree.documents options.input ∨
      tree.positionOf options.input ++ names ∈ tree.outputPositions options := by
  rw [h.hasDirectory_after.mem_documents_iff, h.edited.positionOf_eq]
  constructor
  · rintro ⟨hdocument, content, hentry⟩
    refine (h.edited.entry?_of_file hentry).symm.imp_left fun hbefore => ?_
    exact h.hasDirectory.mem_documents_iff.mpr ⟨hdocument, content, hbefore⟩
  · rintro (hmem | hposition)
    · obtain ⟨hdocument, content, hentry⟩ := h.hasDirectory.mem_documents_iff.mp hmem
      exact ⟨hdocument, h.edited.exists_file hentry⟩
    · obtain ⟨ui, -, hentry⟩ := h.holdsOutput hposition
      exact ⟨isDocument_of_extension? (h.extension?_of_mem hposition), _, hentry⟩

theorem uiSchema_of_mem (h : AllCompiled tree after options)
    (hposition : tree.positionOf options.input ++ names ∈ tree.outputPositions options) :
    after.uiSchema (options.input.join names) =
      .error (.error (.app (.compilation .missingVersion))) := by
  refine h.hasDirectory_after.uiSchema_of_holdsOutput ?_ (h.extension?_of_mem hposition)
  rw [h.edited.positionOf_eq]
  exact h.holdsOutput hposition

theorem uiSchema_of_notMem (h : AllCompiled tree after options)
    (hmem : names ∈ tree.documents options.input)
    (hposition : tree.positionOf options.input ++ names ∉ tree.outputPositions options) :
    after.uiSchema (options.input.join names) = tree.uiSchema (options.input.join names) := by
  obtain ⟨-, content, hentry⟩ := h.hasDirectory.mem_documents_iff.mp hmem
  exact h.hasDirectory.uiSchema_congr h.hasDirectory_after (h.edited.positionOf_eq _) hentry
    (h.edited.keeps.entry?_eq _ _ hentry (.inr hposition))

end AllCompiled

/-! ### The second run -/

/-- Outputs were written over outputs. -/
structure Rewritten (outputs : List (List String)) (tree after : FileTree) : Prop where
  map_fst_eq : after.entries.map Prod.fst = tree.entries.map Prod.fst
  edited : Edited (· ∈ outputs) tree after
  holdsOutput : ∀ position ∈ outputs, after.HoldsOutput position

/-- What a document comes to when the directory is compiled again. -/
def failureAgain? (tree : FileTree) (options : BatchOptions) (names : List String) :
    Option Failure :=
  if tree.positionOf options.input ++ names ∈ tree.outputPositions options then
    some (.app (.compilation .missingVersion))
  else none

namespace AllCompiled

variable {rest : List (List String)}

/-- Along the second run a document stays what it was after the first. -/
theorem uiSchema_of_rewritten (h : AllCompiled tree after options)
    (hbetween : Rewritten (tree.outputPositions options) after between)
    (hmem : names ∈ after.documents options.input) :
    between.uiSchema (options.input.join names) = after.uiSchema (options.input.join names) := by
  have hdirectory := h.hasDirectory_after.edited hbetween.edited
  by_cases hposition : tree.positionOf options.input ++ names ∈ tree.outputPositions options
  · rw [h.uiSchema_of_mem hposition]
    refine hdirectory.uiSchema_of_holdsOutput ?_ (h.extension?_of_mem hposition)
    rw [hbetween.edited.positionOf_eq, h.edited.positionOf_eq]
    exact hbetween.holdsOutput _ hposition
  · obtain ⟨-, content, hentry⟩ := h.hasDirectory_after.mem_documents_iff.mp hmem
    rw [← h.edited.positionOf_eq] at hposition
    exact h.hasDirectory_after.uiSchema_congr hdirectory (hbetween.edited.positionOf_eq _) hentry
      (hbetween.edited.keeps.entry?_eq _ _ hentry (.inr hposition))

/-- Where an output was written, it is written again at once. -/
theorem perform_compileOne_again (h : AllCompiled tree after options)
    (hbetween : Rewritten (tree.outputPositions options) after between)
    (hmem : names ∈ tree.documents options.input) {ui : UiSchema}
    (hui : between.uiSchema (options.input.join names) = .ok ui) :
    tree.positionOf (target options.output names) ∈ between.entries.map Prod.fst ∧
      between.perform (settle (compileOne options.input options.output names)) =
        (.ok (.ok (target options.output names)),
          between.put (tree.positionOf (target options.output names))
            (.file (some (OutputFormat.json.render ui)))) := by
  have hposition : between.positionOf (target options.output names) =
      tree.positionOf (target options.output names) := by
    rw [hbetween.edited.positionOf_eq, h.edited.positionOf_eq]
  obtain ⟨ui', -, hentry⟩ := hbetween.holdsOutput _ (mem_outputPositions_iff.mpr ⟨names, hmem, rfl⟩)
  obtain ⟨position, hlocate⟩ := h.locate_target names hmem
  have hlocate := hbetween.edited.keeps.locate hlocate
  rw [← hposition] at hentry ⊢
  have hfind := find_eq_ok_iff.mpr
    ⟨position, hlocate, by rwa [eq_positionOf_of_locate hlocate], .inr rfl⟩
  constructor
  · have hne : between.positionOf (target options.output names) ≠ [] := by
      intro hnil
      simp [hnil] at hentry
    have hwellFormed := (h.hasDirectory_after.edited hbetween.edited).wellFormed
    exact List.mem_map_of_mem ((hwellFormed.entry?_eq_some_iff hne).mp hentry)
  · rw [perform_compileOne_eq, hui]
    simp only [perform_writeOutput_of_file (segments_target options.output names)
      (append_uiJson_ne _).1 rfl hfind]

/-- Compiling a document again changes no more than the file of its output. -/
theorem rewritten_compileOne (h : AllCompiled tree after options)
    (hbetween : Rewritten (tree.outputPositions options) after between)
    (hmem : names ∈ after.documents options.input) :
    ∃ result next, between.perform (settle (compileOne options.input options.output names)) =
        (.ok result, next) ∧
      failureOf? result = failureAgain? tree options names ∧
      Rewritten (tree.outputPositions options) after next := by
  have hschema := h.uiSchema_of_rewritten hbetween hmem
  rw [failureAgain?]
  by_cases hposition : tree.positionOf options.input ++ names ∈ tree.outputPositions options
  · rw [perform_compileOne_eq, hschema, h.uiSchema_of_mem hposition, if_pos hposition]
    exact ⟨_, _, rfl, rfl, hbetween⟩
  · have hbefore := (h.mem_documents_iff.mp hmem).resolve_right hposition
    obtain ⟨ui, hui⟩ := h.compiles names hbefore
    rw [h.uiSchema_of_notMem hbefore hposition, hui] at hschema
    obtain ⟨hkey, hcompile⟩ := h.perform_compileOne_again hbetween hbefore hschema
    have hdirectory := h.hasDirectory_after.edited hbetween.edited
    have hstep := (step_of_perform_compileOne hcompile).2
    have hedited := edited_of_perform_compileOne hdirectory.wellFormed
      (FilePath.separated_ofText _) (h.hasDirectory.mem_documents_iff.mp hbefore).1
      (h.hasDirectory.isName_of_mem_documents hbefore) hcompile
    refine ⟨_, _, hcompile, by rw [if_neg hposition]; rfl, ?_,
      hbetween.edited.trans (hedited.mono ?_),
      fun position hmem => hstep.holdsOutput (hbetween.holdsOutput position hmem)⟩
    · exact (map_fst_putEntry_of_mem hkey _).trans hbetween.map_fst_eq
    · rintro position rfl
      rw [hbetween.edited.positionOf_eq, h.edited.positionOf_eq]
      exact mem_outputPositions_iff.mpr ⟨names, hbefore, rfl⟩

/-- The second run makes of each document what it is after the first. -/
theorem exists_ran_again (h : AllCompiled tree after options) :
    ∃ report last failure?,
      after.perform (compileAll options.input options.output (after.documents options.input)) =
        (.ok report, last) ∧
      Ran after last options.input options.output (after.documents options.input) failure? report ∧
      Rewritten (tree.outputPositions options) after last ∧
      ∀ names ∈ after.documents options.input,
        failure? names = failureAgain? tree options names := by
  obtain ⟨report, last, failure?, hperform, hran, hend, hfailures⟩ := exists_ran_of_invariant
    (fun between rest => Rewritten (tree.outputPositions options) after between ∧
      rest ⊆ after.documents options.input)
    (fun names => (· = failureAgain? tree options names))
    (fun between names rest ⟨hbetween, hsubset⟩ => by
      obtain ⟨hmem, hrest⟩ := List.cons_subset.mp hsubset
      obtain ⟨result, next, hcompile, hfailure, hnext⟩ := h.rewritten_compileOne hbetween hmem
      exact ⟨result, next, hcompile, hfailure, ⟨hnext, hrest⟩, fun other hother =>
        (h.uiSchema_of_rewritten hnext (hrest hother)).trans
          (h.uiSchema_of_rewritten hbetween (hrest hother)).symm⟩)
    h.hasDirectory_after.nodup_documents ⟨⟨rfl, .refl, fun _ => h.holdsOutput⟩, List.Subset.refl _⟩
  exact ⟨report, last, failure?, hperform, hran, hend.1, hfailures⟩

theorem failureAgain?_eq_none_iff :
    failureAgain? tree options names = none ↔
      tree.positionOf options.input ++ names ∉ tree.outputPositions options := by
  rw [failureAgain?]
  split <;> simp_all

/-- A document that has become an output was the last with its own output, so it was the only
one. -/
theorem eq_of_mem_outputPositions (h : AllCompiled tree after options) {last : List String}
    (hlast : last ∈ tree.documents options.input)
    (hposition : tree.positionOf options.input ++ last ∈ tree.outputPositions options)
    (hgreatest : ∀ other ∈ tree.documents options.input,
      tree.positionOf (target options.output other) =
        tree.positionOf (target options.output last) → isListedBefore other last)
    (hmem : names ∈ tree.documents options.input)
    (heq : tree.positionOf (target options.output names) =
      tree.positionOf (target options.output last)) : names = last := by
  have hdocument {names : List String} (hmem : names ∈ tree.documents options.input) :
      isDocument names :=
    (h.hasDirectory.mem_documents_iff.mp hmem).1
  have hshares := sharesOutput_of_positionOf_eq (h.hasDirectory.isName_of_mem_documents hlast)
    (h.hasDirectory.isName_of_mem_documents hmem) heq.symm
  exact isListedBefore_antisymm (hgreatest names hmem heq)
    (isListedBefore_of_sharesOutput hshares (hdocument hlast) (hdocument hmem)
      (h.extension?_of_mem hposition))

section Again

variable {last : FileTree} {failure? : List String → Option Failure} {report : BatchReport}

/-- What compiles the second time has been there before the first, and is no output. -/
theorem mem_documents_of_failure?_eq_none (h : AllCompiled tree after options)
    (hfailures : ∀ names ∈ after.documents options.input,
      failure? names = failureAgain? tree options names)
    (hmem : names ∈ after.documents options.input) (hnone : failure? names = none) :
    names ∈ tree.documents options.input ∧
      tree.positionOf options.input ++ names ∉ tree.outputPositions options := by
  rw [hfailures names hmem, failureAgain?_eq_none_iff] at hnone
  exact ⟨(h.mem_documents_iff.mp hmem).resolve_right hnone, hnone⟩

/-- Every output is written again by the document that it was written by. -/
theorem entry?_output_again (h : AllCompiled tree after options)
    (hran : Ran after last options.input options.output (after.documents options.input) failure?
      report)
    (hfailures : ∀ names ∈ after.documents options.input,
      failure? names = failureAgain? tree options names)
    (hposition : position ∈ tree.outputPositions options) :
    last.entry? position = after.entry? position := by
  obtain ⟨writer, hwriter, ui, rfl, hgreatest, hui, hcontent⟩ := h.exists_last position hposition
  rw [hcontent]
  by_cases hwriterPosition :
      tree.positionOf options.input ++ writer ∈ tree.outputPositions options
  · -- The writer is an output by now, and nothing else is written to its output.
    refine hran.keeps.entry?_eq _ _ hcontent (.inr ?_)
    rintro ⟨names, hmem, hnone, heq⟩
    rw [h.edited.positionOf_eq] at heq
    obtain ⟨hmem, hnot⟩ := h.mem_documents_of_failure?_eq_none hfailures hmem hnone
    obtain rfl := h.eq_of_mem_outputPositions hwriter hwriterPosition hgreatest hmem heq.symm
    exact hnot hwriterPosition
  · have hmem := h.mem_documents_iff.mpr (.inl hwriter)
    have hnone : failure? writer = none := by
      rw [hfailures writer hmem, failureAgain?_eq_none_iff]
      exact hwriterPosition
    obtain ⟨again, hagain, ui', hagainNone, hagainPosition, hgreatest', hui', hcontent'⟩ :=
      hran.exists_last_of_pairwise h.hasDirectory_after.pairwise_documents hmem hnone
    rw [h.edited.positionOf_eq, h.edited.positionOf_eq] at hagainPosition
    obtain rfl : again = writer := isListedBefore_antisymm
      (hgreatest again (h.mem_documents_of_failure?_eq_none hfailures hagain hagainNone).1
        hagainPosition)
      (hgreatest' writer hmem hnone rfl)
    rw [h.uiSchema_of_notMem hwriter hwriterPosition, hui] at hui'
    obtain rfl := Except.ok.inj hui'
    rwa [h.edited.positionOf_eq] at hcontent'

/-- The second run leaves what the first one left. -/
theorem eq_of_ran_again (h : AllCompiled tree after options)
    (hran : Ran after last options.input options.output (after.documents options.input) failure?
      report)
    (hrewritten : Rewritten (tree.outputPositions options) after last)
    (hfailures : ∀ names ∈ after.documents options.input,
      failure? names = failureAgain? tree options names) : last = after := by
  have hafter := h.hasDirectory_after.wellFormed
  refine hafter.eq_of_entry? (hrewritten.edited.wellFormed hafter) hrewritten.map_fst_eq
    hrewritten.edited.workingDirectory_eq fun position entry hentry => ?_
  by_cases hposition : position ∈ tree.outputPositions options
  · exact (h.entry?_output_again hran hfailures hposition).trans hentry
  · exact hrewritten.edited.keeps.entry?_eq _ _ hentry (.inr hposition)

end Again

/-- The documents that are no outputs are the same before and after. -/
theorem filter_documents_eq (h : AllCompiled tree after options) :
    (after.documents options.input).filter (fun names =>
        tree.positionOf options.input ++ names ∉ tree.outputPositions options) =
      (tree.documents options.input).filter fun names =>
        tree.positionOf options.input ++ names ∉ tree.outputPositions options := by
  have hafter := h.hasDirectory_after
  refine eq_of_pairwise_isListedBefore (hafter.pairwise_documents.filter _)
    (h.hasDirectory.pairwise_documents.filter _) (hafter.nodup_documents.filter _)
    (h.hasDirectory.nodup_documents.filter _) fun names => ?_
  rw [List.mem_filter, List.mem_filter, decide_eq_true_eq, h.mem_documents_iff]
  tauto

/-- An output lies below the directory of the documents exactly if it is listed there. -/
theorem exists_mem_documents_iff (h : AllCompiled tree after options) :
    (∃ names ∈ after.documents options.input,
        tree.positionOf options.input ++ names ∈ tree.outputPositions options) ↔
      ∃ position ∈ tree.outputPositions options, tree.positionOf options.input <+: position := by
  constructor
  · rintro ⟨names, -, hposition⟩
    exact ⟨_, hposition, List.prefix_append _ _⟩
  · rintro ⟨_, hposition, names, rfl⟩
    exact ⟨names, h.mem_documents_iff.mpr (.inr hposition), hposition⟩

/-- The report of the second run. -/
theorem exists_report_again (h : AllCompiled tree after options) :
    ∃ again : BatchReport, after.perform options.run = (.ok again, after) ∧
      again.compiled = ((tree.documents options.input).filter fun names =>
        tree.positionOf options.input ++ names ∉ tree.outputPositions options).map
          (target options.output) ∧
      again.failed = ((after.documents options.input).filter fun names =>
        tree.positionOf options.input ++ names ∈ tree.outputPositions options).map fun names =>
          (options.input.join names, .app (.compilation .missingVersion)) := by
  obtain ⟨report, last, failure?, hperform, hran, hrewritten, hfailures⟩ := h.exists_ran_again
  refine ⟨report, ?_, hran.compiled_eq.trans ?_, hran.failed_eq.trans ?_⟩
  · rw [perform_run h.hasDirectory_after.find_eq, hperform,
      h.eq_of_ran_again hran hrewritten hfailures]
  · rw [← h.filter_documents_eq]
    refine congrArg _ (List.filter_congr fun names hmem => ?_)
    rw [hfailures names hmem, failureAgain?]
    split <;> simp_all
  · rw [← List.filterMap_eq_filter, List.map_filterMap]
    refine List.filterMap_congr fun names hmem => ?_
    rw [hfailures names hmem, failureAgain?]
    split <;> simp_all [Option.guard]

end AllCompiled

/-- After a run without failures the directory is compiled again and every file stays as it is.  The
outputs below the directory of the documents fail for want of a version, and if there are none the
run is the same as before. -/
theorem rerun_of_failed_eq_nil {report : BatchReport} (htree : tree.WellFormed)
    (hrun : tree.perform options.run = (.ok report, after)) (hfailed : report.failed = []) :
    ∃ again : BatchReport, after.perform options.run = (.ok again, after) ∧
      again.compiled = ((tree.documents options.input).filter fun names =>
        tree.positionOf options.input ++ names ∉ tree.outputPositions options).map
          (target options.output) ∧
      again.failed = ((after.documents options.input).filter fun names =>
        tree.positionOf options.input ++ names ∈ tree.outputPositions options).map (fun names =>
          (options.input.join names, .app (.compilation .missingVersion))) ∧
      (again.failed = [] ↔ ∀ position ∈ tree.outputPositions options,
        ¬ tree.positionOf options.input <+: position) ∧
      (again.failed = [] → again = report ∧
        after.documents options.input = tree.documents options.input) := by
  obtain ⟨h, hcompiled⟩ := allCompiled_of_failed_eq_nil htree hrun hfailed
  obtain ⟨again, hagain, hcompiled', hfailed'⟩ := h.exists_report_again
  have hnone : again.failed = [] ↔ ∀ names ∈ after.documents options.input,
      tree.positionOf options.input ++ names ∉ tree.outputPositions options := by
    rw [hfailed', List.map_eq_nil_iff, List.filter_eq_nil_iff]
    simp only [decide_eq_true_eq]
  refine ⟨again, hagain, hcompiled', hfailed', ?_, fun hnil => ?_⟩
  · have hexists := not_congr h.exists_mem_documents_iff
    simp only [not_exists, not_and] at hexists
    rw [hnone, hexists]
  · have hnot := hnone.mp hnil
    have hall := h.filter_documents_eq
    have hself : (tree.documents options.input).filter (fun names =>
        tree.positionOf options.input ++ names ∉ tree.outputPositions options) =
        tree.documents options.input :=
      List.filter_eq_self.mpr fun names hmem =>
        decide_eq_true (hnot names (h.mem_documents_iff.mpr (.inl hmem)))
    rw [List.filter_eq_self.mpr fun names hmem => decide_eq_true (hnot names hmem), hself] at hall
    rw [hself, ← hcompiled] at hcompiled'
    obtain ⟨compiled, failed⟩ := report
    obtain ⟨compiled', failed'⟩ := again
    obtain rfl : compiled' = compiled := hcompiled'
    obtain rfl : failed' = failed := hnil.trans hfailed.symm
    exact ⟨rfl, hall⟩

/-! ### A directory with one document -/

/-- A directory with one document. -/
def oneDocument : FileTree where
  entries := [(["api"], .directory),
    (["api", "a.json"], .file (some "\x7b\"openapi\":\"3.0.0\"\x7d"))]

/-- The directory with the output beside the document. -/
def outputBeside : FileTree where
  entries := [(["api"], .directory),
    (["api", "a.json"], .file (some "\x7b\"openapi\":\"3.0.0\"\x7d")),
    (["api", "a.ui.json"], .file (some "\x7b\n  \"version\": 1,\n  \"entities\": \x7b\x7d\n\x7d"))]

theorem wellFormed_oneDocument : oneDocument.WellFormed :=
  ⟨by decide, by decide, by decide, by decide⟩

theorem documents_oneDocument : oneDocument.documents (.ofText "api") = [["a.json"]] := by
  have hfind : oneDocument.find (.ofText "api") = .ok .directory := rfl
  rw [documents_eq hfind, filesBelow, List.mergeSort_of_pairwise (by decide)]
  decide

theorem documents_outputBeside :
    outputBeside.documents (.ofText "api") = [["a.json"], ["a.ui.json"]] := by
  have hfind : outputBeside.find (.ofText "api") = .ok .directory := rfl
  rw [documents_eq hfind, filesBelow, List.mergeSort_of_pairwise (by decide)]
  decide

/-- With the outputs in another directory the document is compiled again as before. -/
theorem rerun_oneDocument :
    ∃ report after, oneDocument.perform (BatchOptions.run ⟨"api", "out"⟩) = (.ok report, after) ∧
      report.failed = [] ∧
      after.perform (BatchOptions.run ⟨"api", "out"⟩) = (.ok report, after) := by
  have hfind : oneDocument.find (BatchOptions.input ⟨"api", "out"⟩) = .ok .directory := rfl
  have hdocuments : oneDocument.documents (BatchOptions.input ⟨"api", "out"⟩) = [["a.json"]] :=
    documents_oneDocument
  obtain ⟨report, hrun, hfailed⟩ := exists_run_of_count _ 0 hfind hdocuments (by decide +kernel)
  have hfailed := List.length_eq_zero_iff.mp hfailed
  obtain ⟨again, hagain, -, -, hiff, hsame⟩ :=
    rerun_of_failed_eq_nil wellFormed_oneDocument hrun hfailed
  have hnil : again.failed = [] := by
    rw [hiff, outputPositions, hdocuments]
    decide
  obtain rfl := (hsame hnil).1
  exact ⟨_, _, hrun, hfailed, hagain⟩

/-- With the outputs in the directory of the documents the first output fails the second time. -/
theorem rerun_in_place_fails :
    ∃ report again, oneDocument.perform (BatchOptions.run ⟨"api", "api"⟩) =
        (.ok report, outputBeside) ∧
      report.failed = [] ∧
      outputBeside.perform (BatchOptions.run ⟨"api", "api"⟩) = (.ok again, outputBeside) ∧
      again.failed ≠ [] := by
  have hdocuments : oneDocument.documents (BatchOptions.input ⟨"api", "api"⟩) = [["a.json"]] :=
    documents_oneDocument
  have hdocuments' : outputBeside.documents (BatchOptions.input ⟨"api", "api"⟩) =
      [["a.json"], ["a.ui.json"]] :=
    documents_outputBeside
  obtain ⟨report, hrun, hfailed⟩ := exists_run_of_count ⟨"api", "api"⟩ 0 rfl hdocuments
    (by decide +kernel)
  obtain ⟨again, hrun', hfailed'⟩ := exists_run_of_count ⟨"api", "api"⟩ 1 rfl hdocuments'
    (by decide +kernel)
  have hafter : (oneDocument.perform (compileAll (BatchOptions.input ⟨"api", "api"⟩)
      (BatchOptions.output ⟨"api", "api"⟩) [["a.json"]])).2 = outputBeside := by
    decide +kernel
  have hafter' : (outputBeside.perform (compileAll (BatchOptions.input ⟨"api", "api"⟩)
      (BatchOptions.output ⟨"api", "api"⟩) [["a.json"], ["a.ui.json"]])).2 = outputBeside := by
    decide +kernel
  rw [hafter] at hrun
  rw [hafter'] at hrun'
  refine ⟨report, again, hrun, List.length_eq_zero_iff.mp hfailed, hrun', fun hnil => ?_⟩
  rw [hnil] at hfailed'
  cases hfailed'

end CrudUi.Batch
