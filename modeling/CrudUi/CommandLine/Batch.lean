import CrudUi.CommandLine.Output

/-!
# Compiling a directory

Every document below one directory is compiled to a file below another.  The documents are
collected before the first of them is compiled.  One that fails is counted and does not stop the
others; one without an end does, and then there is no report.
-/

namespace CrudUi

variable {m : Type → Type} [Monad m] [FileSystem m]

/-- What became of the documents of a directory. -/
structure BatchReport where
  /-- The files that were written. -/
  compiled : List FilePath := []
  /-- The documents that failed. -/
  failed : List (FilePath × Failure) := []
  deriving Repr

/-- The report with one document more, by what it came to. -/
def BatchReport.add (report : BatchReport) (document : FilePath) :
    Except Failure FilePath → BatchReport
  | .ok written => { report with compiled := written :: report.compiled }
  | .error failure => { report with failed := (document, failure) :: report.failed }

namespace Batch

/-- The extensions of documents. -/
def documentExtensions : List String :=
  ["json", "yaml", "yml"]

/-- Whether a file, given by the names that lead to it, is a document. -/
def isDocument (names : List String) : Bool :=
  match names.getLast?.bind FileName.extension? with
  | some extension => extension ∈ documentExtensions
  | none => false

/-- The documents below a directory. -/
def documents (input : FilePath) : m (List (List String)) := do
  return (← FileSystem.files input).filter isDocument

/-- The file below `output` for a document: the extension gives way to `.ui.json`. -/
def target (output : FilePath) (names : List String) : FilePath :=
  output.join (names.dropLast ++ [FileName.stem (names.getLast?.getD "") ++ ".ui.json"])

/-- Compiles one document below `input`.  The result is the file that was written. -/
def compileOne (input output : FilePath) (names : List String) :
    ExceptT (NoResult Failure) m FilePath := do
  let path := input.join names
  let ui ← (← (Document.load path path.toText).adapt .error).compiled
  ((target output names).writeOutput (OutputFormat.json.render ui)).adapt .error
  return target output names

/-- Carries out a command, of which a failure is a result as well. -/
def settle {α : Type} (command : ExceptT (NoResult Failure) m α) :
    ExceptT (NoResult Failure) m (Except Failure α) :=
  tryCatch (.ok <$> command) fun
    | .error failure => pure (.error failure)
    | .endless => throw .endless

/-- Compiles documents one after another. -/
def compileAll (input output : FilePath) :
    List (List String) → ExceptT (NoResult Failure) m BatchReport
  | [] => return {}
  | names :: rest => do
    let result ← settle (compileOne input output names)
    return (← compileAll input output rest).add (input.join names) result

end Batch

/-- Compiles the documents of a directory. -/
def BatchOptions.run (options : BatchOptions) : ExceptT (NoResult Failure) m BatchReport := do
  let input := FilePath.ofText options.inputDirectory
  if (← FileSystem.kind? (m := m) input) ≠ some .directory then
    throw (.error (.inputDirectoryNotFound options.inputDirectory))
  let documents ← Batch.documents (m := m) input
  Batch.compileAll input (FilePath.ofText options.outputDirectory) documents

end CrudUi
