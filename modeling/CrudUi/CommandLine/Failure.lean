import CrudUi.Errors

/-!
# Failures of a command

A command fails for one of these reasons.  `message` words a failure for a reader, `report` shows it
as a value.  A command may also have no end, and then it does not fail either.
-/

namespace CrudUi

/-- A reason for which a command fails. -/
inductive Failure where
  /-- An output or an address cannot be used. -/
  | system (error : SystemError)
  /-- A document cannot be loaded or compiled. -/
  | app (error : AppError)
  | twoOrigins
  | noOrigin
  | inputNotFound (path : String)
  | inputDirectoryNotFound (path : String)
  | notFetched (url : String)
  | incomplete (failed total : Nat)
  deriving Repr

namespace Failure

/-- What a failure says by itself. -/
def text : Failure → String
  | .system error => error.message
  | .app error => error.message
  | .twoOrigins => "--input and --url are mutually exclusive"
  | .noOrigin => "an OpenAPI document is required (--input or UIGEN_INPUT)"
  | .inputNotFound path => "OpenAPI file not found: " ++ Text.quotedPath path
  | .inputDirectoryNotFound path => "Input directory not found: " ++ Text.quotedPath path
  | .notFetched url => "Failed to fetch " ++ url ++ ": no connection"
  | .incomplete failed total => toString failed ++ " of " ++ toString total ++ " documents failed"

/-- The wording of a failure. -/
def message (failure : Failure) : String :=
  match failure with
  | .system _ => "IO Error: " ++ failure.text
  | .app _ => failure.text
  | .twoOrigins | .noOrigin => "Usage Error: " ++ failure.text
  | .inputNotFound _ | .inputDirectoryNotFound _ | .notFetched _ | .incomplete _ _ =>
    "Operation failed: " ++ failure.text

/-- A failure as a value. -/
def report (failure : Failure) : String :=
  match failure with
  | .system error => "Io(" ++ error.report ++ ")"
  | .app error => "App(" ++ error.report ++ ")"
  | .twoOrigins | .noOrigin => "Usage(" ++ Text.quoted failure.text ++ ")"
  | .inputNotFound _ | .inputDirectoryNotFound _ | .notFetched _ | .incomplete _ _ =>
    "General(" ++ Text.quoted failure.text ++ ")"

end Failure

end CrudUi
