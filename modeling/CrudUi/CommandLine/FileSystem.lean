import CrudUi.CommandLine.FilePath
import CrudUi.Errors

/-!
# File systems

The commands use files through the five operations of a `FileSystem`, so that they run on the
files of the machine as well as on a tree of files that is a plain value.
-/

namespace CrudUi

/-- What a path may lead to. -/
inductive EntryKind where
  | file
  | directory
  deriving DecidableEq, Repr

/-- Whether one file is listed before another or is the same: the names that lead to them are
compared from the first on. -/
def isListedBefore : List String → List String → Bool
  | [], _ => true
  | _ :: _, [] => false
  | name :: names, other :: others => name < other || (name = other && isListedBefore names others)

/-- The operations on files. -/
class FileSystem (m : Type → Type) where
  /-- What a path leads to, if anything. -/
  kind? : FilePath → m (Option EntryKind)
  /-- The text in a file. -/
  read : FilePath → m (Except SystemError String)
  /-- Makes a text the content of a file, in a directory that is there. -/
  write : FilePath → String → m (Except SystemError Unit)
  /-- Makes a directory, and those above it, where they are missing. -/
  createDirectories : FilePath → m (Except SystemError Unit)
  /-- The files below a directory, each by the names that lead to it, in ascending order. -/
  files : FilePath → m (List (List String))

end CrudUi
