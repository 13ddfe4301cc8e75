import CrudUi.CommandLine.Address
import CrudUi.CommandLine.Batch
import CrudUi.Server

/-!
# The program

`Program.run` goes from arguments and environment to what the program shows and how it ends.  A
command that fails ends with code 1, arguments that are refused end with code 2.  A command without
an end is aborted when the stack runs out.
-/

namespace CrudUi

/-- How a run of the program ends. -/
inductive Ending where
  | done
  | failed (failure : Failure)
  | refused (error : ArgumentError)
  /-- The stack has run out. -/
  | aborted
  /-- The program goes on to answer requests at an address. -/
  | serving (server : Server) (address : String)
  deriving Repr

/-- The code of an ending. -/
def Ending.code : Ending → Nat
  | .done | .serving _ _ => 0
  | .failed _ => 1
  | .refused _ => 2
  | .aborted => 134

/-- What a run of the program shows, and how it ends. -/
structure Outcome where
  shown : String := ""
  ending : Ending := .done
  deriving Repr

namespace Program

/-- What the program answers when it is asked for its version. -/
def versionText : String := "uigen-cli 0.1.0\n"

/-- What the program answers when it is asked for help. -/
def helpText : String :=
  "Usage: uigen [--log-level LEVEL] COMMAND\n\n" ++
  "  compile [--input FILE | --url URL] [--output FILE] [--format json|yaml]\n" ++
  "  batch --input-dir DIRECTORY --output-dir DIRECTORY\n" ++
  "  serve --input FILE [--bind ADDRESS] [--seed COUNT]\n"

variable {m : Type → Type} [Monad m] [FileSystem m]

/-- The outcome of a command that shows something only if it succeeds. -/
def outcome (run : ExceptT (NoResult Failure) m Outcome) : m Outcome := do
  return match ← run.run with
    | .ok outcome => outcome
    | .error (.error failure) => { ending := .failed failure }
    | .error .endless => { ending := .aborted }

/-- The outcome of compiling a directory.  The count is shown even if documents failed. -/
def batchOutcome (options : BatchOptions) (report : BatchReport) : Outcome :=
  let compiled := report.compiled.length
  let failed := report.failed.length
  { shown := "Compiled " ++ toString compiled ++ " documents into " ++
      Text.quotedPath options.outputDirectory ++ "\n"
    ending := if failed = 0 then .done else .failed (.incomplete failed (failed + compiled)) }

/-- Prepares to serve a document: sample rows for its entities, and an address. -/
def serve (options : ServeOptions) : ExceptT (NoResult Failure) m Outcome := do
  let ui ← (← (Origin.file options.input).load.adapt .error).compiled
  let server := Server.seeded ui options.rowCount
  let _ ← (Failure.lift (pure (f := m) (Address.ofText options.address))).adapt .error
  return {
    shown := "Serving " ++ toString ui.entities.length ++ " entities on http://" ++
      options.address ++ "\n"
    ending := .serving server options.address }

/-- Carries out a command. -/
def runCommand : Command → m Outcome
  | .help => return { shown := helpText }
  | .version => return { shown := versionText }
  | .compile options => outcome do return { shown := ← options.run }
  | .batch options => outcome do return batchOutcome options (← options.run)
  | .serve options => outcome (serve options)

/-- Carries out what the arguments ask for. -/
def run (environment : Entries String) (arguments : List String) : m Outcome :=
  match Command.ofArguments environment arguments with
  | .error error => return { ending := .refused error }
  | .ok command => runCommand command

end Program

end CrudUi
