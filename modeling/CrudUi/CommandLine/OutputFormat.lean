import CrudUi.CommandLine.FilePath
import CrudUi.Ui.Writing
import CrudUi.Yaml.Printing

/-!
# Formats of the output

A UI schema is written as JSON or as YAML.
-/

namespace CrudUi

/-- The format in which a UI schema is written. -/
inductive OutputFormat where
  | json
  | yaml
  deriving DecidableEq, Repr

namespace OutputFormat

/-- The name of a format. -/
def name : OutputFormat → String
  | .json => "json"
  | .yaml => "yaml"

/-- The format of a name. -/
def ofName? : String → Option OutputFormat
  | "json" => some .json
  | "yaml" => some .yaml
  | _ => none

/-- The format for the file of a path: JSON, unless its extension is `yaml` or `yml`. -/
def forPath (path : FilePath) : OutputFormat :=
  match path.extension? with
  | some "yaml" | some "yml" => .yaml
  | _ => .json

/-- The text of a UI schema. -/
def render : OutputFormat → UiSchema → String
  | .json, ui => ui.toJson.indented
  | .yaml, ui => Yaml.render ui.toJson

theorem ofName?_name (format : OutputFormat) : ofName? format.name = some format := by
  cases format <;> rfl

end OutputFormat

end CrudUi
