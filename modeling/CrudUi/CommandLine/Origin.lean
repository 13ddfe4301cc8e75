import CrudUi.CommandLine.Failure
import CrudUi.CommandLine.FileSystem
import CrudUi.Yaml.Reading

/-!
# Where a document comes from

A document comes from a file or from an address on the network, never from both.  The extension
`json` marks a file as JSON; every other file is read as YAML.
-/

namespace CrudUi

/-- Where a document comes from. -/
inductive Origin where
  | file (path : String)
  | url (address : String)
  deriving DecidableEq, Repr

namespace Origin

/-- The one origin that is given. -/
def select (input url : Option String) : Except Failure Origin :=
  match input, url with
  | some _, some _ => .error .twoOrigins
  | some path, none => .ok (.file path)
  | none, some address => .ok (.url address)
  | none, none => .error .noOrigin

end Origin

/-- Reads a document from the text of a file. -/
def Document.ofFileText (extension? : Option String) (text : String) :
    Except DocumentError Document :=
  if extension? = some "json" then ofJsonText text else ofYamlText text

variable {m : Type → Type} [Monad m] [FileSystem m]

/-- Loads the document in the file of a path, which a message shows as the text `shown`. -/
def Document.load (path : FilePath) (shown : String) : ExceptT Failure m Document := do
  if (← FileSystem.kind? (m := m) path).isNone then throw (.inputNotFound shown)
  match ← FileSystem.read (m := m) path with
  | .error error => throw (.app (.system error))
  | .ok content =>
    ExceptT.mk (pure ((ofFileText path.extension? content).mapError (.app <| .document ·)))

/-- Loads a document from its origin. -/
def Origin.load : Origin → ExceptT Failure m Document
  | .file path => Document.load (FilePath.ofText path) path
  | .url address => throw (.notFetched address)

end CrudUi
