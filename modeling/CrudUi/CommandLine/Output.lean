import CrudUi.CommandLine.Arguments
import CrudUi.CommandLine.Origin

/-!
# Compiling to a file

One document is loaded, compiled and written, to a file or as the text of the answer.
-/

namespace CrudUi

variable {m : Type → Type} [Monad m] [FileSystem m]

/-- An operation on files, whose refusal is a failure of the command. -/
def Failure.lift {α : Type} (operation : m (Except SystemError α)) : ExceptT Failure m α :=
  ExceptT.mk ((·.mapError .system) <$> operation)

/-- Compiles a document, where the failure of the command is wanted. -/
def Document.compiled (document : Document) : ExceptT (NoResult Failure) m UiSchema :=
  ExceptT.mk (pure (document.compile.mapError (.map (.app <| .compilation ·))))

/-- Writes a text to a file, in a directory that is made if it is missing. -/
def FilePath.writeOutput (path : FilePath) (content : String) : ExceptT Failure m Unit := do
  if (← FileSystem.kind? (m := m) path.parent).isNone then
    Failure.lift (FileSystem.createDirectories path.parent)
  Failure.lift (FileSystem.write path content)

namespace CompileOptions

/-- The format of the output: as asked for, else as the name of the output suggests. -/
def outputFormat (options : CompileOptions) : OutputFormat :=
  match options.format, options.output with
  | some format, _ => format
  | none, some output => .forPath (.ofText output)
  | none, none => .json

/-- Compiles one document.  The result is the text to show. -/
def run (options : CompileOptions) : ExceptT (NoResult Failure) m String := do
  let origin ← ExceptT.mk (pure ((Origin.select options.input options.url).mapError .error))
  let ui ← (← origin.load.adapt .error).compiled
  let content := options.outputFormat.render ui
  match options.output with
  | none => return content ++ "\n"
  | some output =>
    ((FilePath.ofText output).writeOutput content).adapt .error
    return "UI schema with " ++ toString ui.entities.length ++ " entities generated at " ++
      Text.quotedPath output ++ "\n"

end CompileOptions

end CrudUi
