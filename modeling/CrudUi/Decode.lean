import CrudUi.Json.Node
import CrudUi.Json.Printing
import CrudUi.Text.Quoted

/-!
# Reading records

A record is read from an object by the names of its fields, or from a list of its fields in their
declared order.  A `Shape` lists the fields; a `Source` says how one kind of tree (a JSON value, a
JSON text, a YAML text) gives up its contents, in the order in which they stand, so that the first
thing wrong is the one reported.
-/

namespace CrudUi

/-- What was found in place of something else. -/
inductive Found where
  | null
  | bool (value : Bool)
  | number (value : Number)
  | string (value : String)
  | sequence
  | map
  deriving DecidableEq, Repr

/-- The kind of a value, with the value where it is a scalar. -/
def Found.ofJson : Json → Found
  | .null => .null
  | .bool value => .bool value
  | .number value => .number value
  | .string value => .string value
  | .array _ => .sequence
  | .object _ => .map

/-- The wording for what was found. -/
def Found.text : Found → String
  | .null => "null"
  | .bool true => "boolean \x60true\x60"
  | .bool false => "boolean \x60false\x60"
  | .number (.int value) => "integer \x60" ++ toString value ++ "\x60"
  | .number (.float value) => "floating point \x60" ++ value.text ++ "\x60"
  | .string value => "string " ++ Text.quoted value
  | .sequence => "sequence"
  | .map => "map"

/-- A reason for which a tree cannot be read as what it should be. -/
inductive DecodeError where
  | invalidType (found : Found) (expected : String)
  | invalidValue (found : Found) (expected : String)
  | invalidLength (length : Nat) (expected : String)
  | missingField (name : String)
  | duplicateField (name : String)
  | unknownVariant (name : String) (known : List String)
  | noVariant (name : String)
  /-- An entry of the table of paths cannot be read. -/
  | pathItem (path : String) (reason : DecodeError)
  | text (error : Json.TextError)
  /-- A YAML text cannot be read; its reasons are not told apart. -/
  | yaml
  deriving DecidableEq, Repr

/-- The wording of a reason. -/
def DecodeError.message : DecodeError → String
  | .invalidType found expected => "invalid type: " ++ found.text ++ ", expected " ++ expected
  | .invalidValue found expected => "invalid value: " ++ found.text ++ ", expected " ++ expected
  | .invalidLength length expected =>
    "invalid length " ++ toString length ++ ", expected " ++ expected
  | .missingField name => "missing field \x60" ++ name ++ "\x60"
  | .duplicateField name => "duplicate field \x60" ++ name ++ "\x60"
  | .unknownVariant name known =>
    "unknown variant \x60" ++ name ++ "\x60, expected one of " ++
      String.intercalate ", " (known.map fun k => "\x60" ++ k ++ "\x60")
  | .noVariant name => "data did not match any variant of untagged enum " ++ name
  | .pathItem path reason => "Failed to parse path item '" ++ path ++ "': " ++ reason.message
  | .text error => error.message
  | .yaml => ""

/-- What becomes of a field that is not there. -/
inductive Presence where
  /-- An error. -/
  | required
  /-- Nothing, in an object; in a list of fields it is an error. -/
  | optional
  /-- Its default. -/
  | defaulted
  deriving DecidableEq, Repr

/-- The name of a kind of record, and its fields in their declared order. -/
structure Shape where
  name : String
  fields : List (String × Presence)

namespace Shape

/-- The wording for a record of this shape. -/
def expected (shape : Shape) : String :=
  "struct " ++ shape.name

/-- The error for a list that is too short for the record. -/
def tooShort (shape : Shape) (length : Nat) : DecodeError :=
  .invalidLength length (shape.expected ++ " with " ++ toString shape.fields.length ++
    (if shape.fields.length = 1 then " element" else " elements"))

/-- The error for the first field that must be there and is not.  `length` is the number of
fields given, if they were given as a list. -/
def missing? (shape : Shape) (length : Option Nat) (present : List String) :
    Option DecodeError :=
  match length with
  | some length =>
    ((shape.fields.drop length).find? (·.2 ≠ .defaulted)).map fun _ =>
      shape.tooShort (shape.fields.take length ++
        (shape.fields.drop length).takeWhile (·.2 = .defaulted)).length
  | none =>
    (shape.fields.find? fun field => field.2 = .required ∧ field.1 ∉ present).map fun field =>
      .missingField field.1

end Shape

/-- The contents of a table or a record: names and values in their order, and a check to be made
behind them. -/
structure Contents (m : Type → Type) (ν : Type) where
  entries : List (m String × ν)
  finish : m Unit
  /-- The number of fields, for a record given as a list. -/
  length : Option Nat

/-- How trees of the type `ν` give up their contents. -/
structure Source (m : Type → Type) (ν : Type) where
  /-- The tree as a generic value. -/
  keep : ν → m Json
  /-- Passes over a tree. -/
  skip : ν → m Unit
  /-- Nothing for a null. -/
  optional : ν → m (Option ν)
  /-- The text of a string. -/
  text : ν → m String
  /-- The entries of a table. -/
  table : ν → m (Contents m ν)
  /-- The fields of a record. -/
  record : Shape → ν → m (Contents m ν)

namespace Source

variable {m : Type → Type} [Monad m] [MonadExceptOf DecodeError m] {ν α : Type}

/-- Reads the entries of a table one after another. -/
def readEntries (value : ν → m α) :
    List (m String × ν) → Entries α → m (Entries α)
  | [], acc => pure acc
  | (key, node) :: rest, acc => do
    let key ← key
    let item ← value node
    readEntries value rest (acc.insert key item)

/-- Reads a table of values. -/
def readTable (source : Source m ν) (value : ν → m α) (node : ν) : m (Entries α) := do
  let contents ← source.table node
  let entries ← readEntries value contents.entries []
  contents.finish
  return entries

/-- Fills the fields of a record one after another.  `seen` lists those that are filled. -/
def fillFields (source : Source m ν) (shape : Shape) (set : α → String → ν → m α) :
    List (m String × ν) → α → List String → m (α × List String)
  | [], acc, seen => pure (acc, seen)
  | (key, node) :: rest, acc, seen => do
    let key ← key
    if shape.fields.any (·.1 = key) then
      if key ∈ seen then throw (.duplicateField key)
      let acc ← set acc key node
      fillFields source shape set rest acc (key :: seen)
    else
      source.skip node
      fillFields source shape set rest acc seen

/-- Reads a record, starting from `blank`.  The function `set` stores the value of a field. -/
def readRecord (source : Source m ν) (shape : Shape) (blank : α) (set : α → String → ν → m α)
    (node : ν) : m α := do
  let contents ← source.record shape node
  let (filled, seen) ← fillFields source shape set contents.entries blank []
  contents.finish
  match shape.missing? contents.length seen with
  | some error => throw error
  | none => return filled

/-- Reads a value that may be null. -/
def readOptional (source : Source m ν) (value : ν → m α) (node : ν) : m (Option α) := do
  match ← source.optional node with
  | some node => return some (← value node)
  | none => return none

end Source

/-! ### Reading JSON values -/

/-- A reading that may fail. -/
abbrev Decoded (α : Type) := Except DecodeError α

namespace Json

/-- The error for a value of the wrong kind. -/
def mismatch (value : Json) (expected : String) : DecodeError :=
  .invalidType (.ofJson value) expected

/-- Reads a string. -/
def readString : Json → Decoded String
  | .string s => .ok s
  | value => .error (value.mismatch "a string")

/-- Reads a truth value. -/
def readBool : Json → Decoded Bool
  | .bool b => .ok b
  | value => .error (value.mismatch "a boolean")

/-- Reads an unsigned number of 32 bits. -/
def readWord : Json → Decoded Nat
  | .number (.int n) =>
    if 0 ≤ n ∧ n < Nat.pow 2 32 then .ok n.toNat
    else .error (.invalidValue (.number (.int n)) "u32")
  | value => .error (value.mismatch "u32")

/-- Reads a list. -/
def readList {α : Type} (item : Json → Decoded α) : Json → Decoded (List α)
  | .array items => items.mapM item
  | value => .error (value.mismatch "a sequence")

/-- The entries of an object. -/
private def contents (entries : List (String × Json)) : Contents (Except DecodeError) Json where
  entries := entries.map fun entry => (.ok entry.1, entry.2)
  finish := .ok ()
  length := none

/-- The fields of a record given as a list. -/
private def listed (shape : Shape) (items : List Json) : Contents (Except DecodeError) Json where
  entries := (shape.fields.zip items).map fun entry => (.ok entry.1.1, entry.2)
  finish :=
    if shape.fields.length < items.length then
      .error (.invalidLength items.length "fewer elements in array")
    else .ok ()
  length := some items.length

/-- JSON values as trees to be read. -/
def source : Source (Except DecodeError) Json where
  keep value := .ok value
  skip _ := .ok ()
  optional value := .ok (if value.isNull then none else some value)
  text := readString
  table
    | .object entries => .ok (contents entries)
    | value => .error (value.mismatch "a map")
  record shape
    | .object entries => .ok (contents entries)
    | .array items => .ok (listed shape items)
    | value => .error (value.mismatch shape.expected)

/-- Reads a value that may be null. -/
def readOptional {α : Type} (read : Json → Decoded α) : Json → Decoded (Option α) :=
  source.readOptional read

end Json

/-! ### Reading JSON texts -/

/-- A tree in a JSON text, and the number of levels of containers that it may have. -/
structure Json.Placed where
  node : Json.Node
  depth : Nat

namespace Json.Placed

/-- An error of the text as an error of the reading. -/
def lift {α : Type} (result : Except TextError α) : Decoded α :=
  result.mapError .text

/-- The error for a node of the wrong kind. -/
private def mismatch (node : Node) (expected : String) : Decoded DecodeError :=
  match node with
  | .null => .ok (.invalidType .null expected)
  | .bool value => .ok (.invalidType (.bool value) expected)
  | .number value => return .invalidType (.number (← lift value)) expected
  | .string value => return .invalidType (.string (← lift value)) expected
  | .array _ _ => .ok (.invalidType .sequence expected)
  | .object _ _ => .ok (.invalidType .map expected)
  | .broken fault => .error (.text fault.kept)

private def refuse {α : Type} (node : Node) (expected : String) : Decoded α := do
  throw (← mismatch node expected)

/-- The members of an object, one level down. -/
def contents (depth : Nat) (members : List (Except TextError String × Node))
    (fault : Option Fault) : Decoded (Contents (Except DecodeError) Placed) :=
  match depth with
  | 0 => .error (.text .tooDeep)
  | depth + 1 => .ok {
      entries := members.map fun member => (lift member.1, ⟨member.2, depth⟩)
      finish := lift (Node.check fault (·.kept))
      length := none }

/-- What is wrong behind the last field of a record given as a list. -/
private def behind (rest : List Node) (fault : Option Fault) : Except TextError Unit :=
  match rest, fault with
  | [], none => .ok ()
  | [], some fault =>
    .error (if fault.kept = .endInList then .endInList else .trailingCharacters)
  | .broken fault :: _, _ =>
    .error (if fault.kept = .trailingComma then .trailingComma else .trailingCharacters)
  | _ :: _, _ => .error .trailingCharacters

/-- The fields of a record given as a list, one level down. -/
private def listed (depth : Nat) (shape : Shape) (items : List Node) (fault : Option Fault) :
    Decoded (Contents (Except DecodeError) Placed) :=
  match depth with
  | 0 => .error (.text .tooDeep)
  | depth + 1 => .ok {
      entries := (shape.fields.zip items).map fun entry => (.ok entry.1.1, ⟨entry.2, depth⟩)
      finish := lift <|
        if items.length < shape.fields.length then Node.check fault (·.kept)
        else behind (items.drop shape.fields.length) fault
      length := some items.length }

/-- JSON texts as trees to be read. -/
def source : Source (Except DecodeError) Placed where
  keep placed := lift (placed.node.keep placed.depth)
  skip placed := lift placed.node.skip
  optional placed := match placed.node with
    | .null => .ok none
    | .broken fault => .error (.text fault.kept)
    | _ => .ok (some placed)
  text placed := match placed.node with
    | .string value => lift value
    | node => refuse node "a string"
  table placed := match placed.node with
    | .object members fault => contents placed.depth members fault
    | node => refuse node "a map"
  record shape placed := match placed.node with
    | .object members fault => contents placed.depth members fault
    | .array items fault => listed placed.depth shape items fault
    | node => refuse node shape.expected

end Json.Placed

end CrudUi
