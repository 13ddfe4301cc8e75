import CrudUi.CommandLine.Program

/-!
# The program on a machine

Arguments, environment and files are those of the machine.  While it serves, the program answers
requests from its standard input, one a line: method, path and perhaps a body, between spaces.
-/

namespace CrudUi

/-- The refusal that an error of the machine stands for. -/
def SystemError.ofMachine : IO.Error → SystemError
  | .noFileOrDirectory .. => .notFound
  | .inappropriateType _ 21 _ => .isADirectory
  | .inappropriateType _ 20 _ => .notADirectory
  | .permissionDenied _ code reason => .other code.toNat "PermissionDenied" reason
  | error => .other 5 "Other" (toString error)

/-- Runs an operation of the machine and keeps its refusal. -/
def attempt {α : Type} (operation : IO α) : IO (Except SystemError α) := do
  try return .ok (← operation) catch error => return .error (.ofMachine error)

/-- The text that names a path to the machine. -/
def FilePath.machineText (path : FilePath) : String :=
  if path.endsInSlash then path.toText ++ "/" else path.toText

/-- The files below a directory, by the names that lead to them.  Links are passed over. -/
partial def listFiles (path : FilePath) (names : List String) : IO (List (List String)) := do
  let directory ← IO.FS.realPath (path.join names).machineText
  let mut files := []
  for entry in ← directory.readDir do
    let names := names ++ [entry.fileName]
    match (← entry.path.symlinkMetadata).type with
    | .dir => files := files ++ (← listFiles path names)
    | .file => files := files ++ [names]
    | _ => pure ()
  return files

instance : FileSystem IO where
  kind? path := do
    match ← attempt (IO.FS.realPath path.machineText) with
    | .ok place => return some (if ← place.isDir then .directory else .file)
    | .error _ => return none
  read path := do
    match ← attempt (IO.FS.readBinFile path.machineText) with
    | .ok bytes => return match String.fromUTF8? bytes with
      | some content => .ok content
      | none => .error .notText
    | .error error => return .error error
  write path content := attempt (IO.FS.writeFile path.machineText content)
  createDirectories path := attempt (IO.FS.createDirAll path.machineText)
  files path := do
    match ← attempt (listFiles path []) with
    | .ok files => return files.mergeSort isListedBefore
    | .error _ => return []

/-- The variables of the environment that options read. -/
def readEnvironment : IO (Entries String) :=
  ["UIGEN_INPUT", "UIGEN_OUTPUT", "UIGEN_BIND"].filterMapM fun name => do
    return (← IO.getEnv name).map fun value => (name, value)

/-- The request on a line. -/
def Request.ofLine (line : String) : Request :=
  match Text.splitOn (· = ' ') line.toList with
  | method :: path :: body =>
    let body := " ".intercalate (body.map String.ofList)
    ⟨String.ofList method, String.ofList path, if body = "" then none else some body⟩
  | _ => ⟨line, "", none⟩

/-- Answers requests until there are no more. -/
partial def answerLines (input : IO.FS.Stream) (server : Server) : IO Unit := do
  let line ← input.getLine
  if line.isEmpty then return
  let (reply, server) := server.respond (.ofLine line.trimAscii.toString)
  IO.println (toString reply.status.code ++ " " ++ ((reply.body.map Json.compact).getD ""))
  answerLines input server

end CrudUi

open CrudUi in
/-- Runs the program. -/
def main (arguments : List String) : IO UInt32 := do
  let outcome ← Program.run (m := IO) (← readEnvironment) arguments
  IO.print outcome.shown
  match outcome.ending with
  | .done => pure ()
  | .failed failure => IO.eprintln ("Error: " ++ failure.report)
  | .refused error => IO.eprintln ("error: " ++ error.message)
  | .aborted => IO.eprintln "stack overflow"
  | .serving server _ => answerLines (← IO.getStdin) server
  return outcome.ending.code.toUInt32
