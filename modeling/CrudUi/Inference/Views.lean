import CrudUi.Ascending
import CrudUi.Text.CaseMap
import CrudUi.Ui.Entity

/-!
# The primary key and the default views

The primary key is the field `id`, else `_id`, else the least name that ends in `id` in any case.
The list shows the key first and at most five columns; the form offers what a client may set, the
required fields first.
-/

namespace CrudUi

/-- The greatest number of columns of a list. -/
def maxColumns : Nat := 5

/-- Whether a name ends in `id`, in any case. -/
def endsWithId (name : String) : Bool :=
  ['i', 'd'].isSuffixOf (Text.lowercase name.toList)

/-- The field that identifies a record. -/
def inferPrimaryKey (fields : List Field) : Option String :=
  let names := fields.map Field.name
  if "id" ∈ names then some "id"
  else if "_id" ∈ names then some "_id"
  else Ascending.least? (names.filter endsWithId)

/-- The names of the columns: scalar fields, the key in front. -/
def listColumns (fields : List Field) (key : Option String) : List String :=
  let columns := (fields.filter (!·.type.isComposite)).map Field.name
  let ordered := match key with
    | some key => if key ∈ columns then key :: columns.erase key else columns
    | none => columns
  ordered.take maxColumns

/-- Whether a form offers a field: not one that the server sets, nor a key that is not required. -/
def isEditable (key : Option String) (field : Field) : Bool :=
  !field.isReadOnly && (key ≠ some field.name || field.required)

/-- The names of the fields of the form: the required ones before the others. -/
def formFields (fields : List Field) (key : Option String) : List String :=
  ((fields.filter fun field => field.required && isEditable key field) ++
    (fields.filter fun field => !field.required && isEditable key field)).map Field.name

/-- The default views for fields and a key. -/
def buildViews (fields : List Field) (key : Option String) : Views where
  columns := listColumns fields key
  detail := fields.map Field.name
  form := formFields fields key

end CrudUi
