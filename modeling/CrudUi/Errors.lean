import CrudUi.Compile
import CrudUi.OpenApi.Document.Reading
import CrudUi.Store.Validation
import CrudUi.Text.Quoted

/-!
# Errors

What goes wrong with documents and records is an `AppError` of one of six kinds.  `message` words an
error for a reader; `report` shows it as a value, which is what the program prints when it fails.
-/

namespace CrudUi

/-! ### Refusals by the system -/

/-- A reason for which the system refuses an operation. -/
inductive SystemError where
  | notFound
  | notADirectory
  | isADirectory
  | nameTooLong
  /-- The content of a file is not text. -/
  | notText
  /-- An address without a port. -/
  | invalidAddress
  | invalidPort
  /-- A refusal by its code, kind and reason. -/
  | other (code : Nat) (kind reason : String)
  deriving DecidableEq, Repr

namespace SystemError

/-- The code of a refusal by the operating system.  A refusal of a value has none. -/
def code? : SystemError → Option Nat
  | .notFound => some 2
  | .notADirectory => some 20
  | .isADirectory => some 21
  | .nameTooLong => some 36
  | .notText | .invalidAddress | .invalidPort => none
  | .other code _ _ => some code

/-- The kind of a refusal. -/
def kind : SystemError → String
  | .notFound => "NotFound"
  | .notADirectory => "NotADirectory"
  | .isADirectory => "IsADirectory"
  | .nameTooLong => "InvalidFilename"
  | .notText => "InvalidData"
  | .invalidAddress | .invalidPort => "InvalidInput"
  | .other _ kind _ => kind

/-- What a refusal says. -/
def reason : SystemError → String
  | .notFound => "No such file or directory"
  | .notADirectory => "Not a directory"
  | .isADirectory => "Is a directory"
  | .nameTooLong => "File name too long"
  | .notText => "stream did not contain valid UTF-8"
  | .invalidAddress => "invalid socket address"
  | .invalidPort => "invalid port value"
  | .other _ _ reason => reason

/-- The wording of a refusal. -/
def message (error : SystemError) : String :=
  match error.code? with
  | some code => error.reason ++ " (os error " ++ toString code ++ ")"
  | none => error.reason

/-- A refusal as a value. -/
def report (error : SystemError) : String :=
  let parts := "kind: " ++ error.kind ++ ", message: \x22" ++ error.reason ++ "\x22 \x7d"
  match error.code? with
  | some code => "Os \x7b code: " ++ toString code ++ ", " ++ parts
  | none => "Error \x7b " ++ parts

end SystemError

/-! ### Errors of documents and records -/

/-- The kinds of errors. -/
inductive ErrorKind where
  | unsupportedVersion
  | parse
  | io
  | notFound
  | validation
  | general
  deriving DecidableEq, Repr

namespace ErrorKind

/-- The name of a kind. -/
def name : ErrorKind → String
  | .unsupportedVersion => "UnsupportedVersion"
  | .parse => "Parse"
  | .io => "Io"
  | .notFound => "NotFound"
  | .validation => "Validation"
  | .general => "General"

/-- What the wording of an error of a kind starts with. -/
def label : ErrorKind → String
  | .unsupportedVersion => "Unsupported OpenAPI document"
  | .parse => "Parse Error"
  | .io => "IO Error"
  | .notFound => "Not Found"
  | .validation => "Validation Error"
  | .general => "General Error"

end ErrorKind

/-- An error. -/
inductive AppError where
  | compilation (error : CompileError)
  | document (error : DocumentError)
  | system (error : SystemError)
  | noEntity (entity : String)
  | noRow (entity id : String)
  | invalid (entity : String) (problems : List Problem)
  | taken (entity id : String)
  | general (reason : String)
  deriving DecidableEq, Repr

namespace AppError

/-- The kind of an error. -/
def kind : AppError → ErrorKind
  | .compilation _ => .unsupportedVersion
  | .document _ => .parse
  | .system _ => .io
  | .noEntity _ | .noRow _ _ => .notFound
  | .invalid _ _ | .taken _ _ => .validation
  | .general _ => .general

/-- What an error says. -/
def reason : AppError → String
  | .compilation error => error.reason
  | .document error => error.reason
  | .system error => error.message
  | .noEntity entity => "entity '" ++ entity ++ "'"
  | .noRow entity id => entity ++ " '" ++ id ++ "'"
  | .invalid entity problems =>
    entity ++ " record rejected: " ++ String.intercalate "; " (problems.map Problem.message)
  | .taken entity id => entity ++ " record rejected: '" ++ id ++ "' already exists"
  | .general reason => reason

/-- The wording of an error. -/
def message (error : AppError) : String :=
  error.kind.label ++ ": " ++ error.reason

/-- An error as a value. -/
def report (error : AppError) : String :=
  let content := match error with
    | .system error => error.report
    | error => Text.quoted error.reason
  error.kind.name ++ "(" ++ content ++ ")"

end AppError

end CrudUi
