import CrudUi.Crud.Action
import CrudUi.OpenApi.Method
import CrudUi.Text.Split

/-!
# Path templates

A path template is read as its segments, the parts between slashes that are not empty.  A segment
in braces is a parameter.  A path whose last segment is a parameter addresses one item, any other
path a collection, and the method on it decides which action an operation is.
-/

namespace CrudUi.Path

/-- Whether a segment is a parameter: it stands in braces. -/
def isTemplated (segment : List Char) : Bool :=
  match segment with
  | '\x7b' :: rest => rest.getLast? = some '\x7d'
  | _ => false

/-- The parts of a path between slashes that are not empty. -/
def segments (path : String) : List (List Char) :=
  (Text.splitOn (· = '/') path.toList).filter (!·.isEmpty)

/-- Whether a path addresses an item. -/
def isItem (path : String) : Bool :=
  match (segments path).getLast? with
  | some segment => isTemplated segment
  | none => false

/-- The path of the collection: a slash and the first segment that is no parameter, or the slash
alone. -/
def resource (path : String) : String :=
  match (segments path).find? (!isTemplated ·) with
  | some segment => String.ofList ('/' :: segment)
  | none => "/"

/-- The last segment that is no parameter. -/
def lastStatic? (path : String) : Option String :=
  ((segments path).reverse.find? (!isTemplated ·)).map String.ofList

/-- Whether `candidate` is narrower than `current`: shorter in bytes, or of the same length and
less. -/
def isNarrower (candidate current : String) : Bool :=
  candidate.utf8ByteSize < current.utf8ByteSize ||
    (candidate.utf8ByteSize = current.utf8ByteSize && candidate < current)

/-- The action that a method on a path stands for. -/
def classify (method : Method) (path : String) : Option Action :=
  match method, isItem path with
  | .get, false => some .list
  | .get, true => some .read
  | .post, false => some .create
  | .put, true => some .update
  | .patch, true => some .update
  | .delete, true => some .delete
  | _, _ => none

end CrudUi.Path
