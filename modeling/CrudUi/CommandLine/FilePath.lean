import CrudUi.Text.Split

/-!
# Paths of files

A path is read from its text once and then used by its segments.  Empty segments count for
nothing, but a slash at the end says that a directory is meant.  The segments `.` and `..` keep
their meaning of the same directory and the one above; neither is the name of a file.
-/

namespace CrudUi

/-- The path of a file or directory, from the root or from the working directory. -/
structure FilePath where
  fromRoot : Bool := false
  segments : List String
  endsInSlash : Bool := false
  deriving DecidableEq, Repr

namespace FilePath

/-- The path that a text writes. -/
def ofText (text : String) : FilePath :=
  let parts := (Text.splitOn (· = '/') text.toList).map String.ofList
  { fromRoot := text.toList.head? = some '/'
    segments := parts.filter (· ≠ "")
    endsInSlash := parts.getLast? = some "" }

/-- The segments that lead somewhere. -/
def components (path : FilePath) : List String :=
  path.segments.filter (· ≠ ".")

/-- The name of the file that a path leads to. -/
def fileName? (path : FilePath) : Option String :=
  match path.components.getLast? with
  | some ".." => none
  | last => last

/-- The directory in which the file of a path lies. -/
def parent (path : FilePath) : FilePath :=
  { fromRoot := path.fromRoot, segments := path.components.dropLast }

/-- The path of what lies below a directory. -/
def join (directory : FilePath) (names : List String) : FilePath :=
  { directory with segments := directory.segments ++ names, endsInSlash := false }

/-- A text that writes a path. -/
def toText (path : FilePath) : String :=
  let names := "/".intercalate path.segments
  if path.fromRoot then "/" ++ names else if path.segments = [] then "." else names

end FilePath

/-! ### Names of files -/

namespace FileName

/-- A name cut at its last dot.  A dot in front does not cut. -/
def cut (name : String) : String × Option String :=
  let chars := name.toList.reverse
  match chars.dropWhile (· ≠ '.') with
  | [] | [_] => (name, none)
  | _ :: before =>
    (String.ofList before.reverse, some (String.ofList (chars.takeWhile (· ≠ '.')).reverse))

/-- A name without its extension. -/
def stem (name : String) : String :=
  (cut name).1

/-- What follows the last dot of a name. -/
def extension? (name : String) : Option String :=
  (cut name).2

end FileName

/-- The extension of the file that a path leads to. -/
def FilePath.extension? (path : FilePath) : Option String :=
  path.fileName?.bind FileName.extension?

end CrudUi
