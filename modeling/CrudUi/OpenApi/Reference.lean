import CrudUi.Text.Percent
import CrudUi.Text.Split

/-!
# References to components

A local reference has the form `#/components/<section>/<name>`.  The name is a segment of a JSON
pointer in a URI fragment: `~1` and `~0` stand for a slash and a tilde, and percent escapes for
bytes.  References of any other form name nothing.
-/

namespace CrudUi.Reference

/-- Replaces `~` followed by `digit`. -/
def unescapeTilde (digit replacement : Char) : List Char → List Char
  | '~' :: c :: rest =>
    if c = digit then replacement :: unescapeTilde digit replacement rest
    else '~' :: unescapeTilde digit replacement (c :: rest)
  | c :: rest => c :: unescapeTilde digit replacement rest
  | [] => []

/-- The name that a segment of a reference stands for. -/
def decodeSegment (segment : List Char) : List Char :=
  Text.Percent.decode (unescapeTilde '0' '~' (unescapeTilde '1' '/' segment))

/-- The name of the component that a reference points to in a section. -/
def componentName? (group reference : String) : Option String :=
  match reference.toList with
  | '#' :: '/' :: pointer =>
    match Text.splitOn (· = '/') pointer with
    | [root, part, segment] =>
      if root = "components".toList ∧ part = group.toList then
        let name := decodeSegment segment
        if name.isEmpty then none else some (String.ofList name)
      else none
    | _ => none
  | _ => none

/-- The name of the schema that a reference points to. -/
def schemaName? (reference : String) : Option String :=
  componentName? "schemas" reference

/-- The reference to the schema of a name, written without escapes. -/
def toSchema (name : String) : String :=
  "#/components/schemas/" ++ name

end CrudUi.Reference
