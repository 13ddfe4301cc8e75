/-!
# Tokens of a YAML text

Besides the signs that stand in the text there are tokens for what the indentation means: the
start of a block list, the start of a block table, and the end of either.
-/

namespace CrudUi.Yaml

/-- A token of a YAML text. -/
inductive Token where
  | streamEnd
  /-- The line `%YAML major.minor`. -/
  | version (major minor : Nat)
  /-- The line `%TAG handle stem`. -/
  | tagDirective (handle stem : String)
  | documentStart
  | documentEnd
  | blockListStart
  | blockTableStart
  | blockEnd
  | openBracket
  | closeBracket
  | openBrace
  | closeBrace
  /-- The dash in front of an item. -/
  | item
  | comma
  | key
  | value
  | anchor (name : String)
  | alias (name : String)
  | tag (handle suffix : String)
  /-- A text.  Only a plain one, without quotes, may stand for something else. -/
  | scalar (plain : Bool) (text : String)
  deriving DecidableEq, Repr

end CrudUi.Yaml
