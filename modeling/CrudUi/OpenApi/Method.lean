/-!
# HTTP methods

The methods that a path can declare, in the order in which they are walked.
-/

namespace CrudUi

/-- An HTTP method. -/
inductive Method where
  | get
  | put
  | post
  | delete
  | options
  | head
  | patch
  | trace
  deriving DecidableEq, Repr

namespace Method

/-- Every method, in walk order. -/
def all : List Method :=
  [.get, .put, .post, .delete, .options, .head, .patch, .trace]

/-- The name of a method in a request. -/
def name : Method → String
  | .get => "GET"
  | .put => "PUT"
  | .post => "POST"
  | .delete => "DELETE"
  | .options => "OPTIONS"
  | .head => "HEAD"
  | .patch => "PATCH"
  | .trace => "TRACE"

/-- The name of the field of a path item that holds the operation of a method. -/
def field : Method → String
  | .get => "get"
  | .put => "put"
  | .post => "post"
  | .delete => "delete"
  | .options => "options"
  | .head => "head"
  | .patch => "patch"
  | .trace => "trace"

theorem mem_all (method : Method) : method ∈ all := by
  cases method <;> simp [all]

end Method

end CrudUi
