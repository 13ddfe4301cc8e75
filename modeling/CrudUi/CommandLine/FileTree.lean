import CrudUi.CommandLine.FileSystem

/-!
# Trees of files

A file tree is the list of its entries by their positions, which are the names on the way from
the root; the root itself is always a directory.  The operations follow a path from segment to
segment, each of which needs a directory to start from.
-/

namespace CrudUi

/-- A file, with its content if that is text, or a directory. -/
inductive FileEntry where
  | file (content : Option String)
  | directory
  deriving DecidableEq, Repr

/-- Whether an entry is a file or a directory. -/
def FileEntry.kind : FileEntry → EntryKind
  | .file _ => .file
  | .directory => .directory

/-- Files and directories by their positions, and the position of the working directory. -/
structure FileTree where
  entries : List (List String × FileEntry) := []
  workingDirectory : List String := []
  deriving DecidableEq, Repr

namespace FileTree

/-- The greatest length of a name, in bytes. -/
def maxNameLength : Nat := 255

/-- The entry at a position. -/
def entry? (tree : FileTree) (position : List String) : Option FileEntry :=
  if position = [] then some .directory else tree.entries.lookup position

/-- The entries with one put at a position, in place of what is there. -/
def putEntry (position : List String) (entry : FileEntry) :
    List (List String × FileEntry) → List (List String × FileEntry)
  | [] => [(position, entry)]
  | other :: rest =>
    if other.1 = position then (position, entry) :: rest
    else other :: putEntry position entry rest

/-- Puts an entry at a position, in place of what is there. -/
def put (tree : FileTree) (position : List String) (entry : FileEntry) : FileTree :=
  { tree with entries := putEntry position entry tree.entries }

/-- Adds a file together with the directories on the way to it. -/
def add (tree : FileTree) (position : List String) (entry : FileEntry) : FileTree :=
  let above := (List.range position.length).map fun count => position.take count
  let tree := above.foldl (fun tree position =>
    if (tree.entry? position).isSome then tree else tree.put position .directory) tree
  tree.put position entry

/-- The position that a segment leads to from another, which must be a directory. -/
def follow (tree : FileTree) (position : List String) (segment : String) :
    Except SystemError (List String) :=
  match tree.entry? position with
  | none => .error .notFound
  | some (.file _) => .error .notADirectory
  | some .directory =>
    if segment = "." then .ok position
    else if segment = ".." then .ok position.dropLast
    else if maxNameLength < segment.utf8ByteSize then .error .nameTooLong
    else .ok (position ++ [segment])

/-- The position from which a path starts. -/
def start (tree : FileTree) (path : FilePath) : List String :=
  if path.fromRoot then [] else tree.workingDirectory

/-- The position that a path leads to, whether or not there is an entry. -/
def locate (tree : FileTree) (path : FilePath) : Except SystemError (List String) :=
  path.segments.foldlM tree.follow (tree.start path)

/-- The entry that a path leads to.  A slash at the end asks for a directory. -/
def find (tree : FileTree) (path : FilePath) : Except SystemError FileEntry := do
  match tree.entry? (← tree.locate path) with
  | none => throw .notFound
  | some .directory => return .directory
  | some entry => if path.endsInSlash then throw .notADirectory else return entry

/-- The text in a file. -/
def read (tree : FileTree) (path : FilePath) : Except SystemError String := do
  match ← tree.find path with
  | .directory => throw .isADirectory
  | .file none => throw .notText
  | .file (some content) => return content

/-- The tree in which a file holds a text. -/
def write (tree : FileTree) (path : FilePath) (content : String) :
    Except SystemError FileTree := do
  let position ← tree.locate path
  if path.endsInSlash then throw .isADirectory
  match tree.entry? position with
  | some .directory => throw .isADirectory
  | some (.file _) | none => return tree.put position (.file (some content))

/-- Follows segments from a position and makes the directories that are missing.  The tree is the
one reached, also where a file stands in the way. -/
def makeDirectories (tree : FileTree) (position : List String) :
    List String → Except SystemError Unit × FileTree
  | [] => (.ok (), tree)
  | segment :: rest =>
    match tree.follow position segment with
    | .error error => (.error error, tree)
    | .ok next => match tree.entry? next with
      | none => (tree.put next .directory).makeDirectories next rest
      | some (.file _) => (.error .notADirectory, tree)
      | some .directory => tree.makeDirectories next rest

/-- The files below a position, ascending. -/
def filesBelow (tree : FileTree) (position : List String) : List (List String) :=
  let below := tree.entries.filterMap fun entry => match entry.2 with
    | .file _ => if position.isPrefixOf entry.1 then some (entry.1.drop position.length) else none
    | .directory => none
  below.mergeSort isListedBefore

instance : FileSystem (StateM FileTree) where
  kind? path := return ((← get).find path).toOption.map FileEntry.kind
  read path := return (← get).read path
  write path content := do
    match (← get).write path content with
    | .ok tree => set tree; return .ok ()
    | .error error => return .error error
  createDirectories path := modifyGet fun tree =>
    tree.makeDirectories (tree.start path) path.segments
  files path := do
    let tree ← get
    return match tree.locate path with
      | .ok position => tree.filesBelow position
      | .error _ => []

end FileTree

end CrudUi
