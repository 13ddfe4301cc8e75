import CrudUi.CommandLine.Batch
import CrudUi.Proofs.CommandLine.Outputs
import Mathlib.Logic.Function.Basic

/-!
# The files that compiling a directory writes

Documents are compiled one after another, and where the output starts out empty no file that is
written is a document that is still to be read.  So each document is compiled as it stood at the
start, and the report says of each document, once, that it was compiled or why it failed
(`Batch.Ran`).  All this holds as long as compiling the documents has an end.  The first document on
which it has none ends the run: there is no report, and only what comes before that document has
been compiled.

The output of a document is named for its stem.  Documents in one directory that differ in the
extension alone share an output, and its file holds what was written last: each document that
compiles finds its own output afterwards exactly if those that share an output are rendered alike
(`Batch.outputs_kept_iff`).

## Main definitions

* `Batch.Step` : what compiling one document may come to, if it has an end.
* `Batch.Reported` : what a report says of each document.
* `Batch.Written` : what has changed in the tree of files.
* `Batch.Ran` : both of them.
* `Batch.SharesOutput` : documents that are written to one file.
-/

namespace CrudUi

namespace Batch

variable {tree after : FileTree} {input output : FilePath} {names other : List String}

/-! ### One document -/

/-- What compiling one document may come to, if it has an end. -/
inductive Step (tree : FileTree) (input output : FilePath) (names : List String) :
    Except Failure FilePath → FileTree → Prop
  /-- There is no UI schema. -/
  | failed (failure : Failure)
      (hschema : tree.uiSchema (input.join names) = .error (.error failure)) :
      Step tree input output names (.error failure) tree
  /-- The output cannot be written. -/
  | unwritten (ui : UiSchema) (error : SystemError) (after : FileTree)
      (hschema : tree.uiSchema (input.join names) = .ok ui)
      (hkeeps : tree.Keeps after fun _ => False) :
      Step tree input output names (.error (.system error)) after
  /-- The output is written. -/
  | written (ui : UiSchema) (after : FileTree)
      (hschema : tree.uiSchema (input.join names) = .ok ui)
      (hkeeps : tree.Keeps after (· = tree.positionOf (target output names)))
      (hfind : after.find (target output names) =
        .ok (.file (some (OutputFormat.json.render ui)))) :
      Step tree input output names (.ok (target output names)) after

/-- The document is compiled, and its UI schema is written. -/
theorem perform_compileOne_eq (tree : FileTree) (input output : FilePath) (names : List String) :
    tree.perform (settle (compileOne input output names)) =
      match tree.uiSchema (input.join names) with
      | .error .endless => (.error .endless, tree)
      | .error (.error failure) => (.ok (.error failure), tree)
      | .ok ui =>
        match tree.perform ((target output names).writeOutput (OutputFormat.json.render ui)) with
        | (.ok _, after) => (.ok (.ok (target output names)), after)
        | (.error failure, after) => (.ok (.error failure), after) := by
  have hrun : tree.perform (compileOne input output names) =
      tree.perform ((do
        (← (Document.load (input.join names) (input.join names).toText).adapt .error).compiled) >>=
        fun ui => do
          ((target output names).writeOutput (OutputFormat.json.render ui)).adapt .error
          return target output names) := by
    rw [compileOne, bind_assoc]
  rw [settle, FileTree.perform_tryCatch, FileTree.perform_map, hrun, FileTree.perform_bind,
    tree.perform_compiled (input.join names)]
  cases tree.uiSchema (input.join names) with
  | error reason => cases reason <;> rfl
  | ok ui =>
    simp only [FileTree.perform_bind, FileTree.perform_adapt]
    rcases tree.perform ((target output names).writeOutput (OutputFormat.json.render ui)) with
      ⟨- | -, after⟩ <;> rfl

/-- A document without an end changes nothing; every other one comes to a result. -/
theorem perform_compileOne_cases (tree : FileTree) (input output : FilePath)
    (names : List String) :
    tree.uiSchema (input.join names) = .error .endless ∧
        tree.perform (settle (compileOne input output names)) = (.error .endless, tree) ∨
      tree.uiSchema (input.join names) ≠ .error .endless ∧
        ∃ result after,
          tree.perform (settle (compileOne input output names)) = (.ok result, after) ∧
          Step tree input output names result after := by
  rw [perform_compileOne_eq]
  cases hresult : tree.uiSchema (input.join names) with
  | error reason =>
    cases reason with
    | endless => exact .inl ⟨rfl, rfl⟩
    | error failure => exact .inr ⟨nofun, _, _, rfl, .failed failure hresult⟩
  | ok ui =>
    refine .inr ⟨nofun, ?_⟩
    rcases tree.perform_writeOutput_cases (target output names) (OutputFormat.json.render ui) with
      ⟨error, after, hwrite, hkeeps⟩ | ⟨after, hwrite, hkeeps, hfind⟩
    · simp only [hwrite]
      exact ⟨_, _, rfl, .unwritten ui error after hresult hkeeps⟩
    · simp only [hwrite]
      exact ⟨_, _, rfl, .written ui after hresult hkeeps hfind⟩

/-- What compiling one document has come to. -/
theorem step_of_perform_compileOne {result : Except Failure FilePath}
    (h : tree.perform (settle (compileOne input output names)) = (.ok result, after)) :
    tree.uiSchema (input.join names) ≠ .error .endless ∧
      Step tree input output names result after := by
  rcases perform_compileOne_cases tree input output names with
    ⟨-, hendless⟩ | ⟨hends, result', after', hresult, hstep⟩
  · rw [hendless] at h
    cases h
  · obtain ⟨heq, rfl⟩ := Prod.mk.inj (hresult.symm.trans h)
    obtain rfl := Except.ok.inj heq
    exact ⟨hends, hstep⟩

/-! ### All documents -/

/-- A report on documents: each was compiled or failed, for the reason that `failure?` gives. -/
structure Reported (tree : FileTree) (input output : FilePath) (documents : List (List String))
    (failure? : List String → Option Failure) (report : BatchReport) : Prop where
  /-- The report lists the outputs of the documents that were compiled. -/
  compiled_eq : report.compiled =
    (documents.filter fun names => (failure? names).isNone).map (target output)
  /-- It lists the other documents with their failures. -/
  failed_eq : report.failed =
    documents.filterMap fun names => (failure? names).map (input.join names, ·)
  /-- No document is without an end. -/
  ne_endless : ∀ names ∈ documents, tree.uiSchema (input.join names) ≠ .error .endless
  /-- A document without a UI schema fails for that reason. -/
  failure_of_error : ∀ names ∈ documents, ∀ failure,
    tree.uiSchema (input.join names) = .error (.error failure) → failure? names = some failure
  /-- A document with a UI schema fails only if its output cannot be written. -/
  failure_of_ok : ∀ names ∈ documents, ∀ ui, tree.uiSchema (input.join names) = .ok ui →
    failure? names = none ∨ ∃ error, failure? names = some (.system error)

/-- The tree that is left when documents were compiled, but for those that `failure?` names. -/
structure Written (tree after : FileTree) (input output : FilePath) (documents : List (List String))
    (failure? : List String → Option Failure) : Prop where
  /-- The entries that change are files at the outputs of compiled documents. -/
  keeps : tree.Keeps after fun position => ∃ names ∈ documents, failure? names = none ∧
    position = tree.positionOf (target output names)
  /-- The last of the compiled documents that share an output is the one that its file holds. -/
  find_last : ∀ before names behind, documents = before ++ names :: behind →
    failure? names = none →
    (∀ later ∈ behind, failure? later = none →
      tree.positionOf (target output later) ≠ tree.positionOf (target output names)) →
    ∀ ui, tree.uiSchema (input.join names) = .ok ui →
      after.find (target output names) = .ok (.file (some (OutputFormat.json.render ui)))

/-- What a run makes of documents: a report and a tree that go together. -/
structure Ran (tree after : FileTree) (input output : FilePath) (documents : List (List String))
    (failure? : List String → Option Failure) (report : BatchReport) : Prop extends
  Reported tree input output documents failure? report,
  Written tree after input output documents failure?

/-- There is a report if the first document comes to a result and there is one on the others. -/
theorem perform_compileAll_cons_eq_ok_iff {rest : List (List String)} {report : BatchReport} :
    tree.perform (compileAll input output (names :: rest)) = (.ok report, after) ↔
      ∃ result between others,
        tree.perform (settle (compileOne input output names)) = (.ok result, between) ∧
        between.perform (compileAll input output rest) = (.ok others, after) ∧
        others.add (input.join names) result = report := by
  rw [compileAll]
  simp only [FileTree.perform_bind_eq_ok_iff, FileTree.perform_pure, Prod.mk.injEq,
    Except.ok.injEq]
  constructor
  · rintro ⟨result, between, hfirst, others, _, hrest, hreport, rfl⟩
    exact ⟨result, between, others, hfirst, hrest, hreport⟩
  · rintro ⟨result, between, others, hfirst, hrest, hreport⟩
    exact ⟨result, between, hfirst, others, _, hrest, hreport, rfl⟩

/-- A document without an end ends the run, and the tree is left as the documents before it have
left it. -/
theorem perform_compileAll_of_endless {before behind : List (List String)} {report : BatchReport}
    (hbefore : tree.perform (compileAll input output before) = (.ok report, after))
    (hendless : after.uiSchema (input.join names) = .error .endless) :
    tree.perform (compileAll input output (before ++ names :: behind)) =
      (.error .endless, after) := by
  induction before generalizing tree report with
  | nil =>
    obtain ⟨-, rfl⟩ := Prod.mk.inj hbefore
    rw [List.nil_append, compileAll, FileTree.perform_bind, perform_compileOne_eq, hendless]
  | cons first rest ih =>
    obtain ⟨result, between, others, hfirst, hrest, -⟩ :=
      perform_compileAll_cons_eq_ok_iff.mp hbefore
    rw [List.cons_append, compileAll, FileTree.perform_bind, hfirst]
    simp only [FileTree.perform_bind, ih hrest]

/-- The failure in a result. -/
def failureOf? : Except Failure FilePath → Option Failure
  | .ok _ => none
  | .error failure => some failure

theorem Step.keeps {result : Except Failure FilePath}
    (h : Step tree input output names result after) :
    tree.Keeps after fun position => failureOf? result = none ∧
      position = tree.positionOf (target output names) := by
  cases h with
  | failed => exact .refl tree _
  | unwritten ui error after hschema hkeeps => exact hkeeps.mono fun _ => False.elim
  | written ui after hschema hkeeps => exact hkeeps.mono fun _ hposition => ⟨rfl, hposition⟩

section Cons

variable {between : FileTree} {rest : List (List String)} {failure? : List String → Option Failure}
  {report : BatchReport} {result : Except Failure FilePath}

theorem update_failure?_of_mem (hnotMem : names ∉ rest) (hother : other ∈ rest) :
    Function.update failure? names (failureOf? result) other = failure? other :=
  Function.update_of_ne (ne_of_mem_of_not_mem hother hnotMem) _ _

theorem Reported.cons (hreported : Reported between input output rest failure? report)
    (hends : tree.uiSchema (input.join names) ≠ .error .endless)
    (hstep : Step tree input output names result between) (hnotMem : names ∉ rest)
    (hschemas : ∀ other ∈ rest,
      between.uiSchema (input.join other) = tree.uiSchema (input.join other)) :
    Reported tree input output (names :: rest)
      (Function.update failure? names (failureOf? result))
      (report.add (input.join names) result) := by
  constructor
  case compiled_eq =>
    have hrest : rest.filter (fun other =>
        (Function.update failure? names (failureOf? result) other).isNone) =
        rest.filter fun other => (failure? other).isNone :=
      List.filter_congr fun other hother => by rw [update_failure?_of_mem hnotMem hother]
    rw [List.filter_cons, Function.update_self, hrest]
    cases hstep with
    | failed | unwritten => simpa [BatchReport.add, failureOf?] using hreported.compiled_eq
    | written => simp [BatchReport.add, failureOf?, hreported.compiled_eq]
  case failed_eq =>
    have hrest : rest.filterMap (fun other =>
        (Function.update failure? names (failureOf? result) other).map (input.join other, ·)) =
        rest.filterMap fun other => (failure? other).map (input.join other, ·) :=
      List.filterMap_congr fun other hother => by rw [update_failure?_of_mem hnotMem hother]
    rw [List.filterMap_cons, Function.update_self, hrest, ← hreported.failed_eq]
    cases hstep <;> rfl
  case ne_endless =>
    intro other hmem
    rcases List.mem_cons.mp hmem with rfl | hmem
    · exact hends
    · rw [← hschemas other hmem]
      exact hreported.ne_endless other hmem
  case failure_of_error =>
    intro other hmem failure hfailure
    rcases List.mem_cons.mp hmem with rfl | hmem
    · rw [Function.update_self]
      cases hstep with
      | failed found hfound =>
        cases hfound.symm.trans hfailure
        rfl
      | unwritten ui error after hschema => simp [hschema] at hfailure
      | written ui after hschema => simp [hschema] at hfailure
    · rw [update_failure?_of_mem hnotMem hmem]
      exact hreported.failure_of_error other hmem failure (by rwa [hschemas other hmem])
  case failure_of_ok =>
    intro other hmem ui hui
    rcases List.mem_cons.mp hmem with rfl | hmem
    · rw [Function.update_self]
      cases hstep with
      | failed failure hfailure => simp [hfailure] at hui
      | unwritten ui error => exact .inr ⟨error, rfl⟩
      | written => exact .inl rfl
    · rw [update_failure?_of_mem hnotMem hmem]
      exact hreported.failure_of_ok other hmem ui (by rwa [hschemas other hmem])

theorem Written.cons (hwritten : Written between after input output rest failure?)
    (hstep : Step tree input output names result between) (hnotMem : names ∉ rest)
    (hschemas : ∀ other ∈ rest,
      between.uiSchema (input.join other) = tree.uiSchema (input.join other)) :
    Written tree after input output (names :: rest)
      (Function.update failure? names (failureOf? result)) := by
  have hposition (path : FilePath) : between.positionOf path = tree.positionOf path :=
    hstep.keeps.positionOf_eq path
  constructor
  case keeps =>
    refine (hstep.keeps.mono ?_).trans (hwritten.keeps.mono ?_)
    · rintro position ⟨hresult, hchanged⟩
      exact ⟨names, List.mem_cons_self, by rw [Function.update_self, hresult], hchanged⟩
    · rintro position ⟨other, hmem, hfailure, hchanged⟩
      exact ⟨other, List.mem_cons_of_mem _ hmem,
        by rw [update_failure?_of_mem hnotMem hmem, hfailure], by rw [hchanged, hposition]⟩
  case find_last =>
    intro before last behind hsplit hlast hbehind ui hui
    rcases List.cons_eq_append_iff.mp hsplit with ⟨rfl, heq⟩ | ⟨before, rfl, hrest⟩
    · -- The document itself is the last: none of the others is written to its output.
      obtain ⟨rfl, rfl⟩ := List.cons.inj heq
      rw [Function.update_self] at hlast
      cases hstep with
      | failed | unwritten => simp [failureOf?] at hlast
      | written found between hschema hkeeps hfind =>
        obtain rfl := Except.ok.inj (hschema.symm.trans hui)
        refine hwritten.keeps.find hfind (.inr ?_)
        rintro ⟨later, hlater, hfailure, heq⟩
        rw [hposition, hposition] at heq
        exact hbehind later hlater (by rw [update_failure?_of_mem hnotMem hlater, hfailure])
          heq.symm
    · have hmem : last ∈ rest := by rw [hrest]; simp
      refine hwritten.find_last before last behind hrest
        (by rwa [update_failure?_of_mem hnotMem hmem] at hlast)
        (fun later hlater hfailure => ?_) ui (by rwa [hschemas last hmem])
      have hlaterMem : later ∈ rest := by rw [hrest]; simp [hlater]
      rw [hposition, hposition]
      exact hbehind later hlater (by rw [update_failure?_of_mem hnotMem hlaterMem, hfailure])

/-- A document is compiled before the others, whose files it leaves as they are. -/
theorem Ran.cons (hran : Ran between after input output rest failure? report)
    (hends : tree.uiSchema (input.join names) ≠ .error .endless)
    (hstep : Step tree input output names result between) (hnotMem : names ∉ rest)
    (hschemas : ∀ other ∈ rest,
      between.uiSchema (input.join other) = tree.uiSchema (input.join other)) :
    Ran tree after input output (names :: rest)
      (Function.update failure? names (failureOf? result))
      (report.add (input.join names) result) where
  toReported := hran.toReported.cons hends hstep hnotMem hschemas
  toWritten := hran.toWritten.cons hstep hnotMem hschemas

end Cons

/-- An invariant of the steps, by which each of them has an end and the documents that are left
compile as they did before it, holds of a run as a whole. -/
theorem exists_ran_of_invariant (P : FileTree → List (List String) → Prop)
    (Q : List String → Option Failure → Prop)
    (hstep : ∀ tree names rest, P tree (names :: rest) → ∃ result between,
      tree.perform (settle (compileOne input output names)) = (.ok result, between) ∧
      Q names (failureOf? result) ∧ P between rest ∧
      ∀ other ∈ rest, between.uiSchema (input.join other) = tree.uiSchema (input.join other))
    {documents : List (List String)} (hnodup : documents.Nodup) (hstart : P tree documents) :
    ∃ report after failure?,
      tree.perform (compileAll input output documents) = (.ok report, after) ∧
      Ran tree after input output documents failure? report ∧ P after [] ∧
      ∀ names ∈ documents, Q names (failure? names) := by
  induction documents generalizing tree with
  | nil =>
    exact ⟨_, _, fun _ => none, rfl,
      ⟨⟨rfl, rfl, by simp, by simp, by simp⟩, ⟨.refl tree _, by simp⟩⟩, hstart, by simp⟩
  | cons names rest ih =>
    obtain ⟨hnotMem, hrest⟩ := List.nodup_cons.mp hnodup
    obtain ⟨result, between, hfirst, hresult, hnext, hschemas⟩ := hstep tree names rest hstart
    obtain ⟨hends, hcompile⟩ := step_of_perform_compileOne hfirst
    obtain ⟨report, after, failure?, hperform, hran, hend, hfailures⟩ := ih hrest hnext
    refine ⟨_, _, _, perform_compileAll_cons_eq_ok_iff.mpr ⟨_, _, _, hfirst, hperform, rfl⟩,
      hran.cons hends hcompile hnotMem hschemas, hend, fun other hother => ?_⟩
    rcases List.mem_cons.mp hother with rfl | hother
    · rwa [Function.update_self]
    · rw [update_failure?_of_mem hnotMem hother]
      exact hfailures other hother

/-- Where no output is a document and no document is without an end, a run makes of each document
what it holds at the start. -/
theorem exists_ran {documents : List (List String)} (hnodup : documents.Nodup)
    (hfound : ∀ names ∈ documents, ∃ entry, tree.find (input.join names) = .ok entry)
    (hapart : ∀ names ∈ documents, ∀ other ∈ documents,
      tree.positionOf (input.join names) ≠ tree.positionOf (target output other))
    (hends : ∀ names ∈ documents, tree.uiSchema (input.join names) ≠ .error .endless) :
    ∃ report after failure?,
      tree.perform (compileAll input output documents) = (.ok report, after) ∧
      Ran tree after input output documents failure? report := by
  refine (exists_ran_of_invariant (fun tree documents =>
      (∀ names ∈ documents, ∃ entry, tree.find (input.join names) = .ok entry) ∧
      (∀ names ∈ documents, ∀ other ∈ documents,
        tree.positionOf (input.join names) ≠ tree.positionOf (target output other)) ∧
      ∀ names ∈ documents, tree.uiSchema (input.join names) ≠ .error .endless)
    (fun _ _ => True) ?_ hnodup ⟨hfound, hapart, hends⟩).imp
    fun _ => Exists.imp fun _ => Exists.imp fun _ ⟨hperform, hran, _⟩ => ⟨hperform, hran⟩
  rintro tree names rest ⟨hfound, hapart, hends⟩
  obtain ⟨hendless, -⟩ | ⟨-, result, between, hresult, hstep⟩ :=
    perform_compileOne_cases tree input output names
  · exact absurd hendless (hends names List.mem_cons_self)
  have hkeeps := hstep.keeps
  have hsame : ∀ other ∈ rest, between.find (input.join other) = tree.find (input.join other) := by
    intro other hother
    obtain ⟨entry, hentry⟩ := hfound other (List.mem_cons_of_mem _ hother)
    rw [hentry]
    refine hkeeps.find hentry (.inr fun hchanged => ?_)
    exact hapart other (List.mem_cons_of_mem _ hother) names List.mem_cons_self hchanged.2
  have hschemas : ∀ other ∈ rest,
      between.uiSchema (input.join other) = tree.uiSchema (input.join other) :=
    fun other hother => FileTree.uiSchema_congr (hsame other hother)
  refine ⟨result, between, hresult, trivial,
    ⟨fun other hother => ?_, fun other hother another hanother => ?_, fun other hother => ?_⟩,
    hschemas⟩
  · rw [hsame other hother]
    exact hfound other (List.mem_cons_of_mem _ hother)
  · rw [hkeeps.positionOf_eq, hkeeps.positionOf_eq]
    exact hapart other (List.mem_cons_of_mem _ hother) another (List.mem_cons_of_mem _ hanother)
  · rw [hschemas other hother]
    exact hends other (List.mem_cons_of_mem _ hother)

/-! ### Outputs -/

/-- Documents share an output if they lie in one directory and differ in the extension alone. -/
def SharesOutput (names other : List String) : Prop :=
  names.dropLast = other.dropLast ∧
    FileName.stem (names.getLast?.getD "") = FileName.stem (other.getLast?.getD "")

theorem SharesOutput.target_eq (h : SharesOutput names other) (output : FilePath) :
    target output names = target output other := by
  rw [target, target, h.1, h.2]

/-- The ending of an output alone is longer than the two names that lead elsewhere. -/
theorem append_uiJson_ne (stem : String) :
    stem ++ ".ui.json" ≠ "." ∧ stem ++ ".ui.json" ≠ ".." := by
  constructor <;> intro heq <;>
    simpa using congrArg (fun text : String => text.toList.length) heq

/-- The position of an output follows from the directory and the stem of the document. -/
theorem positionOf_target (tree : FileTree) (output : FilePath)
    (hnames : ∀ name ∈ names, FileTree.IsName name) :
    tree.positionOf (target output names) = tree.positionOf output ++
      (names.dropLast ++ [FileName.stem (names.getLast?.getD "") ++ ".ui.json"]) := by
  refine tree.positionOf_join output fun name hname => ?_
  rcases List.mem_append.mp hname with hname | hname
  · have hname := hnames name (List.dropLast_subset names hname)
    exact ⟨hname.ne_here, hname.ne_above⟩
  · rw [List.mem_singleton.mp hname]
    exact append_uiJson_ne _

theorem sharesOutput_of_positionOf_eq {tree : FileTree} {output : FilePath}
    (hnames : ∀ name ∈ names, FileTree.IsName name) (hother : ∀ name ∈ other, FileTree.IsName name)
    (h : tree.positionOf (target output names) = tree.positionOf (target output other)) :
    SharesOutput names other := by
  rw [positionOf_target tree output hnames, positionOf_target tree output hother,
    List.append_cancel_left_eq] at h
  obtain ⟨hdirectory, hname⟩ := List.append_inj' h rfl
  exact ⟨hdirectory, (String.append_left_inj _).mp (List.singleton_inj.mp hname)⟩

end Batch

namespace BatchOptions

/-- The directory of the documents. -/
def input (options : BatchOptions) : FilePath :=
  .ofText options.inputDirectory

/-- The directory of the outputs. -/
def output (options : BatchOptions) : FilePath :=
  .ofText options.outputDirectory

end BatchOptions

namespace FileTree

variable {tree : FileTree} {path : FilePath} {names : List String}

/-- The documents that are found below a directory. -/
def documents (tree : FileTree) (path : FilePath) : List (List String) :=
  ((Batch.documents path : StateM FileTree _).run tree).run.1

theorem documents_eq (hpath : tree.find path = .ok .directory) :
    tree.documents path = (tree.filesBelow (tree.positionOf path)).filter Batch.isDocument := by
  obtain ⟨position, hlocate, -⟩ := find_eq_ok_iff.mp hpath
  obtain rfl := eq_positionOf_of_locate hlocate
  have hfiles := congrArg Prod.fst (run_files tree path)
  rw [hlocate] at hfiles
  exact congrArg (List.filter Batch.isDocument) hfiles

/-- The documents are the files below the directory that have the extension of a document. -/
theorem WellFormed.mem_documents_iff (h : tree.WellFormed)
    (hpath : tree.find path = .ok .directory) :
    names ∈ tree.documents path ↔
      Batch.isDocument names ∧
        ∃ content, tree.entry? (tree.positionOf path ++ names) = some (.file content) := by
  rw [documents_eq hpath, List.mem_filter, h.mem_filesBelow_iff, and_comm]

theorem WellFormed.nodup_documents (h : tree.WellFormed) (hpath : tree.find path = .ok .directory) :
    (tree.documents path).Nodup := by
  rw [documents_eq hpath]
  exact (h.nodup_filesBelow _).filter _

theorem WellFormed.exists_find_of_mem_documents (h : tree.WellFormed)
    (hpath : tree.find path = .ok .directory) (hmem : names ∈ tree.documents path) :
    ∃ content, tree.entry? (tree.positionOf path ++ names) = some (.file content) ∧
      tree.find (path.join names) = .ok (.file content) := by
  obtain ⟨-, content, hentry⟩ := (h.mem_documents_iff hpath).mp hmem
  exact ⟨content, hentry, h.find_join hpath hentry⟩

theorem WellFormed.isName_of_mem_documents (h : tree.WellFormed)
    (hpath : tree.find path = .ok .directory) (hmem : names ∈ tree.documents path) :
    ∀ name ∈ names, IsName name := by
  intro name hname
  obtain ⟨content, hentry, -⟩ := h.exists_find_of_mem_documents hpath hmem
  exact h.isName_of_entry hentry name (List.mem_append_right _ hname)

end FileTree

namespace Batch

variable {tree after : FileTree} {options : BatchOptions} {names other : List String}

theorem perform_run (hinput : tree.find options.input = .ok .directory) :
    tree.perform options.run =
      tree.perform (compileAll options.input options.output (tree.documents options.input)) := by
  have hkind : (tree.find (FilePath.ofText options.inputDirectory)).toOption.map FileEntry.kind =
      some .directory := by
    rw [BatchOptions.input] at hinput
    rw [hinput]
    rfl
  rw [BatchOptions.run]
  simp only [FileTree.perform_bind, FileTree.perform_liftM, FileTree.run_kind?, hkind]
  rfl

/-- A run that ends with a report, found by counting what failed. -/
theorem exists_run_of_count (options : BatchOptions) {documents : List (List String)} (count : ℕ)
    (hinput : tree.find options.input = .ok .directory)
    (hdocuments : tree.documents options.input = documents)
    (h : (tree.perform (compileAll options.input options.output documents)).1.toOption.map
      (·.failed.length) = some count) :
    ∃ report, tree.perform options.run =
        (.ok report, (tree.perform (compileAll options.input options.output documents)).2) ∧
      report.failed.length = count := by
  rw [perform_run hinput, hdocuments]
  generalize tree.perform (compileAll options.input options.output documents) = run at h ⊢
  obtain ⟨reason | report, after⟩ := run
  · cases h
  · exact ⟨report, rfl, Option.some.inj h⟩

/-- Of members of a list with a property, one is the last. -/
theorem exists_last_of_mem {α : Type} {p : α → Prop} {values : List α} {value : α}
    (hmem : value ∈ values) (hvalue : p value) :
    ∃ before last behind, values = before ++ last :: behind ∧ p last ∧
      ∀ later ∈ behind, ¬ p later := by
  induction values using List.reverseRecOn with
  | nil => exact absurd hmem List.not_mem_nil
  | append_singleton values final ih =>
    by_cases hfinal : p final
    · exact ⟨values, final, [], rfl, hfinal, by simp⟩
    · rcases List.mem_append.mp hmem with hmem | hmem
      · obtain ⟨before, last, behind, rfl, hlast, hbehind⟩ := ih hmem
        refine ⟨before, last, behind ++ [final], by simp, hlast, fun later hlater => ?_⟩
        rcases List.mem_append.mp hlater with hlater | hlater
        · exact hbehind later hlater
        · rwa [List.mem_singleton.mp hlater]
      · rw [List.mem_singleton.mp hmem] at hvalue
        exact absurd hvalue hfinal

/-- Of the compiled documents with one output the last one leaves its UI schema in the file. -/
theorem Ran.exists_last {input output : FilePath} {documents : List (List String)}
    {failure? : List String → Option Failure} {report : BatchReport} {names : List String}
    (hran : Ran tree after input output documents failure? report) (hmem : names ∈ documents)
    (hfailure : failure? names = none) :
    ∃ before last behind ui, documents = before ++ last :: behind ∧ failure? last = none ∧
      tree.positionOf (target output last) = tree.positionOf (target output names) ∧
      (∀ later ∈ behind, failure? later = none →
        tree.positionOf (target output later) ≠ tree.positionOf (target output names)) ∧
      tree.uiSchema (input.join last) = .ok ui ∧
      after.find (target output last) = .ok (.file (some (OutputFormat.json.render ui))) := by
  obtain ⟨before, last, behind, hsplit, ⟨hlast, hposition⟩, hbehind⟩ := exists_last_of_mem
    (p := fun other => failure? other = none ∧
      tree.positionOf (target output other) = tree.positionOf (target output names))
    hmem ⟨hfailure, rfl⟩
  have hlater : ∀ later ∈ behind, failure? later = none →
      tree.positionOf (target output later) ≠ tree.positionOf (target output names) :=
    fun later hlater hnone heq => hbehind later hlater ⟨hnone, heq⟩
  have hlastMem : last ∈ documents := by rw [hsplit]; simp
  cases hui : tree.uiSchema (input.join last) with
  | error reason =>
    cases reason with
    | endless => exact absurd hui (hran.ne_endless last hlastMem)
    | error failure => simp [hran.failure_of_error last hlastMem failure hui] at hlast
  | ok ui =>
    exact ⟨before, last, behind, ui, hsplit, hlast, hposition, hlater, hui,
      hran.find_last before last behind hsplit hlast (by rwa [hposition]) ui hui⟩

/-- Where no write fails, each document finds its output exactly if those that share an output are
rendered alike. -/
theorem Ran.outputs_iff {input output : FilePath} {documents : List (List String)}
    {failure? : List String → Option Failure} {report : BatchReport}
    (hran : Ran tree after input output documents failure? report)
    (hnames : ∀ names ∈ documents, ∀ name ∈ names, FileTree.IsName name)
    (hwrites : ∀ names ∈ documents, ∀ error, failure? names ≠ some (.system error)) :
    (∀ names ∈ documents, ∀ ui, tree.uiSchema (input.join names) = .ok ui →
        after.read (target output names) = .ok (OutputFormat.json.render ui)) ↔
      ∀ names ∈ documents, ∀ other ∈ documents, SharesOutput names other →
        ∀ ui ui', tree.uiSchema (input.join names) = .ok ui →
          tree.uiSchema (input.join other) = .ok ui' →
          OutputFormat.json.render ui = OutputFormat.json.render ui' := by
  constructor
  · intro h names hmem other hother hshares ui ui' hui hui'
    have hread := h names hmem ui hui
    rw [hshares.target_eq output, h other hother ui' hui'] at hread
    exact (Except.ok.inj hread).symm
  · intro h names hmem ui hui
    have hfailure : failure? names = none := by
      rcases hran.failure_of_ok names hmem ui hui with hfailure | ⟨error, hfailure⟩
      · exact hfailure
      · exact absurd hfailure (hwrites names hmem error)
    obtain ⟨before, last, behind, ui', hsplit, -, hposition, -, hlastUi, hfind⟩ :=
      hran.exists_last hmem hfailure
    have hlastMem : last ∈ documents := by rw [hsplit]; simp
    have hshares :=
      sharesOutput_of_positionOf_eq (hnames last hlastMem) (hnames names hmem) hposition
    rw [← hshares.target_eq output, FileTree.read_of_find hfind,
      h last hlastMem names hmem hshares ui' ui hlastUi hui]

section EmptyOutput

variable (htree : tree.WellFormed) (hinput : tree.find options.input = .ok .directory)
  (houtput : ∀ names, names ≠ [] →
    tree.entry? (tree.positionOf options.output ++ names) = none)
include htree hinput houtput

/-- Where the output is empty, no document lies in the place of an output. -/
theorem positionOf_ne_positionOf_target (hmem : names ∈ tree.documents options.input)
    (hother : other ∈ tree.documents options.input) :
    tree.positionOf (options.input.join names) ≠
      tree.positionOf (target options.output other) := by
  intro heq
  obtain ⟨content, hentry, -⟩ := htree.exists_find_of_mem_documents hinput hmem
  have hproper : ∀ name ∈ names, name ≠ "." ∧ name ≠ ".." := fun name hname =>
    have hisName := htree.isName_of_mem_documents hinput hmem name hname
    ⟨hisName.ne_here, hisName.ne_above⟩
  rw [tree.positionOf_join options.input hproper,
    positionOf_target tree options.output (htree.isName_of_mem_documents hinput hother)] at heq
  rw [heq, houtput _ (by simp)] at hentry
  cases hentry

/-- Some of the documents are compiled one after another if none of them is without an end. -/
theorem exists_ran_of_subset {documents : List (List String)} (hnodup : documents.Nodup)
    (hsubset : documents ⊆ tree.documents options.input)
    (hends : ∀ names ∈ documents,
      tree.uiSchema (options.input.join names) ≠ .error .endless) :
    ∃ report after failure?,
      tree.perform (compileAll options.input options.output documents) = (.ok report, after) ∧
      Ran tree after options.input options.output documents failure? report :=
  exists_ran hnodup
    (fun _ hmem =>
      (htree.exists_find_of_mem_documents hinput (hsubset hmem)).imp' _ fun _ => And.right)
    (fun _ hmem _ hother =>
      positionOf_ne_positionOf_target htree hinput houtput (hsubset hmem) (hsubset hother))
    hends

/-- The first document without an end ends the run, when the ones before it have been compiled. -/
theorem perform_run_of_endless {before behind : List (List String)}
    (hdocuments : tree.documents options.input = before ++ names :: behind)
    (hbefore : ∀ other ∈ before, tree.uiSchema (options.input.join other) ≠ .error .endless)
    (hendless : tree.uiSchema (options.input.join names) = .error .endless) :
    ∃ report after failure?, tree.perform options.run = (.error .endless, after) ∧
      Ran tree after options.input options.output before failure? report := by
  have hnodup := htree.nodup_documents hinput
  have hmem : names ∈ tree.documents options.input := by rw [hdocuments]; simp
  have hsubset : before ⊆ tree.documents options.input := by rw [hdocuments]; simp
  rw [hdocuments] at hnodup
  obtain ⟨report, after, failure?, hperform, hran⟩ :=
    exists_ran_of_subset htree hinput houtput (List.Nodup.of_append_left hnodup) hsubset hbefore
  -- The outputs that have been written are no documents, so this one still has no end.
  have hsame : after.uiSchema (options.input.join names) = .error .endless := by
    obtain ⟨content, -, hfind⟩ := htree.exists_find_of_mem_documents hinput hmem
    rw [← hendless]
    refine FileTree.uiSchema_congr (hfind ▸ hran.keeps.find hfind (.inr ?_))
    rintro ⟨other, hother, -, hposition⟩
    exact positionOf_ne_positionOf_target htree hinput houtput hmem (hsubset hother) hposition
  refine ⟨report, after, failure?, ?_, hran⟩
  rw [perform_run hinput, hdocuments]
  exact perform_compileAll_of_endless hperform hsame

end EmptyOutput

/-- The documents below a directory, which are listed once each, are compiled unless compiling one of
them has no end.  The report then says of each that it was compiled or why it failed, and where no
write fails each document that compiles has its output in the file for it, exactly if documents that
share an output are rendered alike.  The first document on which compiling has no end ends the run:
there is no report, and the documents before it alone have been compiled. -/
theorem outputs_kept_iff (htree : tree.WellFormed)
    (hinput : tree.find options.input = .ok .directory)
    (houtput : ∀ names, names ≠ [] →
      tree.entry? (tree.positionOf options.output ++ names) = none) :
    (tree.documents options.input).Nodup ∧
    (∀ names, names ∈ tree.documents options.input ↔ isDocument names ∧ ∃ content,
      tree.entry? (tree.positionOf options.input ++ names) = some (.file content)) ∧
    ((∀ names ∈ tree.documents options.input,
        tree.uiSchema (options.input.join names) ≠ .error .endless) →
      ∃ report after failure?, tree.perform options.run = (.ok report, after) ∧
        Ran tree after options.input options.output (tree.documents options.input) failure? report ∧
        ((∀ names ∈ tree.documents options.input, ∀ error, failure? names ≠ some (.system error)) →
          ((∀ names ∈ tree.documents options.input, ∀ ui,
              tree.uiSchema (options.input.join names) = .ok ui →
              after.read (target options.output names) = .ok (OutputFormat.json.render ui)) ↔
            ∀ names ∈ tree.documents options.input, ∀ other ∈ tree.documents options.input,
              SharesOutput names other → ∀ ui ui',
                tree.uiSchema (options.input.join names) = .ok ui →
                tree.uiSchema (options.input.join other) = .ok ui' →
                OutputFormat.json.render ui = OutputFormat.json.render ui'))) ∧
    ∀ before names behind, tree.documents options.input = before ++ names :: behind →
      (∀ other ∈ before, tree.uiSchema (options.input.join other) ≠ .error .endless) →
      tree.uiSchema (options.input.join names) = .error .endless →
      ∃ report after failure?, tree.perform options.run = (.error .endless, after) ∧
        Ran tree after options.input options.output before failure? report := by
  refine ⟨htree.nodup_documents hinput, fun names => htree.mem_documents_iff hinput,
    fun hends => ?_, fun before names behind hdocuments hbefore hendless =>
      perform_run_of_endless htree hinput houtput hdocuments hbefore hendless⟩
  obtain ⟨report, after, failure?, hperform, hran⟩ := exists_ran_of_subset htree hinput houtput
    (htree.nodup_documents hinput) (List.Subset.refl _) hends
  exact ⟨report, after, failure?, (perform_run hinput).trans hperform, hran,
    hran.outputs_iff fun _ => htree.isName_of_mem_documents hinput⟩

/-! ### Documents of one stem -/

/-- A directory with two documents of one stem. -/
def sharedStem : FileTree where
  entries := [(["in"], .directory),
    (["in", "a.json"], .file (some "\x7b\"openapi\":\"3.0.0\"\x7d")),
    (["in", "a.yaml"], .file (some
      "openapi: 3.0.0\npaths:\n  /notes:\n    get:\n      operationId: notes\n"))]

/-- The UI schema of the second document. -/
def listedNotes : UiSchema where
  entities := [("Note",
    { id := "Note", title := "Note", resourcePath := "/notes"
      endpoints := { list := some ⟨"GET", "/notes", some "notes"⟩ } })]

theorem wellFormed_sharedStem : sharedStem.WellFormed :=
  ⟨by decide, by decide, by decide, by decide⟩

theorem find_sharedStem_in : sharedStem.find (.ofText "in") = .ok .directory := by
  rfl

theorem documents_sharedStem :
    sharedStem.documents (.ofText "in") = [["a.json"], ["a.yaml"]] := by
  rw [FileTree.documents_eq find_sharedStem_in, FileTree.filesBelow,
    List.mergeSort_of_pairwise (by decide)]
  decide

theorem uiSchema_sharedStem :
    sharedStem.uiSchema (FilePath.join (.ofText "in") ["a.json"]) = .ok {} ∧
      sharedStem.uiSchema (FilePath.join (.ofText "in") ["a.yaml"]) = .ok listedNotes := by
  have hempty : (sharedStem.uiSchema (FilePath.join (.ofText "in") ["a.json"])).toOption =
      some {} := by
    decide +kernel
  have hlisted : (sharedStem.uiSchema (FilePath.join (.ofText "in") ["a.yaml"])).toOption =
      some listedNotes := by
    decide +kernel
  exact ⟨toOption_eq_some_iff.mp hempty, toOption_eq_some_iff.mp hlisted⟩

/-! ### A document without an end -/

/-- A directory with a document without an end between two others. -/
def groveBetween : FileTree where
  entries := [(["in"], .directory),
    (["in", "a.json"], .file (some "\x7b\"openapi\":\"3.0.0\"\x7d")),
    (["in", "b.json"], .file (some Document.groveJson.indented)),
    (["in", "c.json"], .file (some "\x7b\"openapi\":\"3.0.0\"\x7d"))]

theorem wellFormed_groveBetween : groveBetween.WellFormed :=
  ⟨by decide, by decide, by decide, by decide⟩

theorem find_groveBetween_in : groveBetween.find (.ofText "in") = .ok .directory := by
  rfl

theorem documents_groveBetween :
    groveBetween.documents (.ofText "in") = [["a.json"]] ++ ["b.json"] :: [["c.json"]] := by
  rw [FileTree.documents_eq find_groveBetween_in, FileTree.filesBelow,
    List.mergeSort_of_pairwise (by decide)]
  decide

theorem uiSchema_groveBetween :
    groveBetween.uiSchema (FilePath.join (.ofText "in") ["a.json"]) = .ok {} ∧
      groveBetween.uiSchema (FilePath.join (.ofText "in") ["b.json"]) = .error .endless := by
  have hempty : (groveBetween.uiSchema (FilePath.join (.ofText "in") ["a.json"])).toOption =
      some {} := by
    decide +kernel
  have hfind : groveBetween.find (FilePath.join (.ofText "in") ["b.json"]) =
      .ok (.file (some Document.groveJson.indented)) := rfl
  refine ⟨toOption_eq_some_iff.mp hempty, ?_⟩
  rw [FileTree.uiSchema_of_find hfind Document.ofJsonText_grove, Document.compile_grove]
  rfl

theorem ne_endless_of_mem_sharedStem {names : List String}
    (h : names ∈ sharedStem.documents (.ofText "in")) :
    sharedStem.uiSchema (FilePath.join (.ofText "in") names) ≠ .error .endless := by
  rw [documents_sharedStem, List.mem_cons, List.mem_singleton] at h
  obtain rfl | rfl := h
  · rw [uiSchema_sharedStem.1]
    exact nofun
  · rw [uiSchema_sharedStem.2]
    exact nofun

theorem outputs_kept_iff_sharedStem_and_grove :
    (sharedStem.WellFormed ∧ sharedStem.find (.ofText "in") = .ok .directory ∧
      (sharedStem.documents (.ofText "in")).Nodup ∧
      ∃ report after failure?,
        sharedStem.perform (BatchOptions.run ⟨"in", "out"⟩) = (.ok report, after) ∧
        Ran sharedStem after (.ofText "in") (.ofText "out") (sharedStem.documents (.ofText "in"))
          failure? report) ∧
    groveBetween.WellFormed ∧ groveBetween.find (.ofText "in") = .ok .directory ∧
      ∃ report after failure?,
        groveBetween.perform (BatchOptions.run ⟨"in", "out"⟩) = (.error .endless, after) ∧
        Ran groveBetween after (.ofText "in") (.ofText "out") [["a.json"]] failure? report := by
  have houtput {tree : FileTree} (hposition : tree.positionOf (.ofText "out") = ["out"])
      (hnone : ∀ entry ∈ tree.entries, ¬ ["out"] <+: entry.1) : ∀ names, names ≠ [] →
      tree.entry? (tree.positionOf (BatchOptions.output ⟨"in", "out"⟩) ++ names) = none := by
    intro names hnames
    rw [BatchOptions.output, hposition, FileTree.entry?_of_ne_nil (by simp),
      List.lookup_eq_none_iff]
    exact fun entry hentry => bne_iff_ne.mpr fun heq =>
      hnone entry hentry (heq ▸ List.prefix_append _ _)
  constructor
  · have hinput : sharedStem.find (BatchOptions.input ⟨"in", "out"⟩) = .ok .directory :=
      find_sharedStem_in
    obtain ⟨hnodup, -, hends, -⟩ :=
      outputs_kept_iff wellFormed_sharedStem hinput (houtput (by decide) (by decide))
    obtain ⟨report, after, failure?, hrun, hran, -⟩ := hends fun _ => ne_endless_of_mem_sharedStem
    exact ⟨wellFormed_sharedStem, find_sharedStem_in, hnodup, report, after, failure?, hrun, hran⟩
  · have hinput : groveBetween.find (BatchOptions.input ⟨"in", "out"⟩) = .ok .directory :=
      find_groveBetween_in
    obtain ⟨-, -, -, hendless⟩ :=
      outputs_kept_iff wellFormed_groveBetween hinput (houtput (by decide) (by decide))
    have hbefore : ∀ other ∈ [["a.json"]],
        groveBetween.uiSchema (FilePath.join (.ofText "in") other) ≠ .error .endless := by
      intro other hother
      rw [List.mem_singleton.mp hother, uiSchema_groveBetween.1]
      exact nofun
    exact ⟨wellFormed_groveBetween, find_groveBetween_in,
      hendless _ _ _ documents_groveBetween hbefore uiSchema_groveBetween.2⟩

/-- Two documents of one stem compile and are written, and one of them does not find its output. -/
theorem outputs_not_kept :
    ∃ report after, sharedStem.perform (BatchOptions.run ⟨"in", "out"⟩) = (.ok report, after) ∧
      report.failed = [] ∧
      ¬ ∀ names ∈ sharedStem.documents (.ofText "in"), ∀ ui,
        sharedStem.uiSchema (FilePath.join (.ofText "in") names) = .ok ui →
        after.read (target (.ofText "out") names) = .ok (OutputFormat.json.render ui) := by
  have hdocuments : sharedStem.documents (BatchOptions.input ⟨"in", "out"⟩) =
      [["a.json"], ["a.yaml"]] :=
    documents_sharedStem
  obtain ⟨report, hrun, hfailed⟩ := exists_run_of_count ⟨"in", "out"⟩ 0
    find_sharedStem_in hdocuments (by decide +kernel)
  refine ⟨report, _, hrun, List.length_eq_zero_iff.mp hfailed, fun h => ?_⟩
  have hempty := h ["a.json"] (by simp [documents_sharedStem]) _ uiSchema_sharedStem.1
  have hlisted := h ["a.yaml"] (by simp [documents_sharedStem]) _ uiSchema_sharedStem.2
  have htarget : target (.ofText "out") ["a.json"] = target (.ofText "out") ["a.yaml"] := by
    decide
  have hentities : listedNotes.entities ≠ [] := by decide
  rw [htarget, hlisted] at hempty
  exact OutputFormat.render_json_ne_of_entities_ne_nil hentities (Except.ok.inj hempty)

end Batch

end CrudUi
