import CrudUi.Text.Words

/-!
# Names of entities and labels of fields

Entity names are written `LikeThis` and labels `Like This`, both from the words of a tag, a path
segment or a property name.  `singularize` turns the plural of a path segment into a singular by
its ending alone.
-/

namespace CrudUi.Naming

/-- The capitalised words of a text, joined. -/
def pascalCase (text : String) : String :=
  String.ofList ((Text.words text.toList).flatMap Text.capitalize)

/-- The label for a name: its capitalised words with blanks between them, or the name itself if
it has no words. -/
def humanize (name : String) : String :=
  let label := List.intercalate [' '] ((Text.words name.toList).map Text.capitalize)
  if label.isEmpty then name else String.ofList label

/-- Drops `suffix` from the end of a text. -/
def dropSuffix? (suffix text : List Char) : Option (List Char) :=
  if suffix.isSuffixOf text then some (text.take (text.length - suffix.length)) else none

/-- The singular of a word: `ies` becomes `y` and `ses` becomes `s`; otherwise an `s` at the end
is dropped, unless it is the whole word or stands after another `s`. -/
def singularize (word : String) : String :=
  let text := word.toList
  match dropSuffix? ['i', 'e', 's'] text, dropSuffix? ['s', 'e', 's'] text with
  | some stem, _ => String.ofList (stem ++ ['y'])
  | none, some stem => String.ofList (stem ++ ['s'])
  | none, none =>
    if 1 < text.length ∧ ['s'].isSuffixOf text ∧ ¬ ['s', 's'].isSuffixOf text then
      String.ofList text.dropLast
    else word

end CrudUi.Naming
