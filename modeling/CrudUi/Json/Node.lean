import CrudUi.Json.Token

/-!
# Values as they stand in a text

A `Node` is the value that a text writes, up to the place where the text breaks off.  The reading
of a node goes through it in the order of the text, so that of several things that are wrong the
first one is reported.  `Node.keep` reads it as a value, `Node.skip` passes over it, and
`Json.parse` reads a whole text as a value.
-/

namespace CrudUi.Json

/-- A value as it stands in a text. -/
inductive Node where
  | null
  | bool (value : Bool)
  | number (value : Except TextError Number)
  | string (value : Except TextError String)
  /-- A list; behind its items the text may break off. -/
  | array (items : List Node) (fault : Option Fault)
  /-- An object; behind its members the text may break off. -/
  | object (members : List (Except TextError String × Node)) (fault : Option Fault)
  /-- Here the text breaks off. -/
  | broken (fault : Fault)

namespace Node

/-- A container that is still open.  Its contents are reversed. -/
inductive Frame where
  | array (items : List Node)
  | object (members : List (Except TextError String × Node))
  | member (members : List (Except TextError String × Node)) (key : Except TextError String)

/-- What may come next. -/
inductive Mode where
  | start
  | firstItem
  | nextItem
  | afterItem
  | firstMember
  | nextMember
  | colon
  | memberValue
  | afterMember

/-- Closes every open container around an innermost node that breaks off. -/
private def closeAll (node : Node) : List Frame → Node
  | [] => node
  | .array items :: frames => closeAll (.array (node :: items).reverse none) frames
  | .object members :: frames => closeAll (.object members.reverse none) frames
  | .member members key :: frames =>
    closeAll (.object ((key, node) :: members).reverse none) frames

/-- The text breaks off in place of a value. -/
private def breakValue (frames : List Frame) (fault : Fault) : Node :=
  closeAll (.broken fault) frames

/-- The text breaks off between the items or members of the innermost container. -/
private def breakBetween (frames : List Frame) (fault : Fault) : Node :=
  match frames with
  | .array items :: outer => closeAll (.array items.reverse (some fault)) outer
  | .object members :: outer => closeAll (.object members.reverse (some fault)) outer
  | _ => breakValue frames fault

/-- The fault of a text that ends too early. -/
private def endFault : Mode → Fault
  | .start | .nextItem | .memberValue => .both .endInValue
  | .firstItem | .afterItem => .both .endInList
  | .nextMember => ⟨.endInValue, .endInObject⟩
  | .firstMember | .colon | .afterMember => .both .endInObject

/-- The text breaks off where `mode` was expected. -/
private def breakAt (mode : Mode) (frames : List Frame) (fault : Fault) : Node :=
  match mode with
  | .start | .nextItem | .memberValue | .colon => breakValue frames fault
  | .firstItem | .afterItem | .firstMember | .nextMember | .afterMember =>
    breakBetween frames fault

/-- Reads tokens.  Gives the node and whether more tokens follow it. -/
def read (mode : Mode) (frames : List Frame) : List Token → Node × Bool
  | [] => (breakAt mode frames (endFault mode), false)
  | token :: rest =>
    let close (node : Node) (outer : List Frame) : Node × Bool :=
      match outer with
      | [] => (node, !rest.isEmpty)
      | .array items :: outer => read .afterItem (.array (node :: items) :: outer) rest
      | .member members key :: outer =>
        read .afterMember (.object ((key, node) :: members) :: outer) rest
      | .object _ :: _ => (node, false)
    match mode with
    | .start | .firstItem | .nextItem | .memberValue =>
      match token, mode, frames with
      | .openBracket, _, _ => read .firstItem (.array [] :: frames) rest
      | .openBrace, _, _ => read .firstMember (.object [] :: frames) rest
      | .null, _, _ => close .null frames
      | .bool b, _, _ => close (.bool b) frames
      | .number n, _, _ => close (.number n) frames
      | .string s, _, _ => close (.string s) frames
      | .brokenString fault, _, _ | .brokenScalar fault, _, _ => (breakValue frames fault, false)
      | .closeBracket, .firstItem, .array items :: outer =>
        close (.array items.reverse none) outer
      | .closeBracket, .nextItem, _ =>
        (breakValue frames ⟨.trailingComma, .expectedValue⟩, false)
      | _, _, _ => (breakValue frames (.both .expectedValue), false)
    | .afterItem => match token, frames with
      | .comma, _ => read .nextItem frames rest
      | .closeBracket, .array items :: outer => close (.array items.reverse none) outer
      | _, _ => (breakBetween frames (.both .expectedCommaOrBracket), false)
    | .firstMember | .nextMember => match token, mode, frames with
      | .string key, _, .object members :: outer =>
        read .colon (.member members key :: outer) rest
      | .brokenString fault, _, _ => (breakBetween frames fault, false)
      | .closeBrace, .firstMember, .object members :: outer =>
        close (.object members.reverse none) outer
      | .closeBrace, .nextMember, _ =>
        (breakBetween frames ⟨.trailingComma, .keyNotString⟩, false)
      | _, _, _ => (breakBetween frames (.both .keyNotString), false)
    | .colon => match token with
      | .colon => read .memberValue frames rest
      | _ => (breakValue frames (.both .expectedColon), false)
    | .afterMember => match token, frames with
      | .comma, _ => read .nextMember frames rest
      | .closeBrace, .object members :: outer => close (.object members.reverse none) outer
      | _, _ => (breakBetween frames (.both .expectedCommaOrBrace), false)

/-- The node that a text writes, and whether anything follows it. -/
def ofText (text : String) : Node × Bool :=
  read .start [] (Token.ofText text)

/-- The fault that an optional fault stands for, as a check. -/
def check (fault : Option Fault) (reason : Fault → TextError) : Except TextError Unit :=
  match fault with
  | some fault => .error (reason fault)
  | none => .ok ()

mutual

/-- Reads a node as a value of at most `depth` levels of containers.  A name that comes twice
keeps its first place and its last value. -/
def keep (depth : Nat) : Node → Except TextError Json
  | .null => .ok .null
  | .bool value => .ok (.bool value)
  | .number value => return .number (← value)
  | .string value => return .string (← value)
  | .broken fault => .error fault.kept
  | .array items fault => match depth with
    | 0 => .error .tooDeep
    | depth + 1 => do
      let items ← keepItems depth items
      check fault (·.kept)
      return .array items
  | .object members fault => match depth with
    | 0 => .error .tooDeep
    | depth + 1 => do
      let members ← keepMembers depth members
      check fault (·.kept)
      return .object (Entries.ofList members)

/-- Reads the items of a list as values. -/
def keepItems (depth : Nat) : List Node → Except TextError (List Json)
  | [] => .ok []
  | item :: rest => do
    let item ← keep depth item
    return item :: (← keepItems depth rest)

/-- Reads the members of an object as values. -/
def keepMembers (depth : Nat) :
    List (Except TextError String × Node) → Except TextError (List (String × Json))
  | [] => .ok []
  | (key, node) :: rest => do
    let key ← key
    let value ← keep depth node
    return (key, value) :: (← keepMembers depth rest)

end

mutual

/-- Passes over a node. -/
def skip : Node → Except TextError Unit
  | .null | .bool _ | .number _ | .string _ => .ok ()
  | .broken fault => .error fault.skipped
  | .array items fault => do skipItems items; check fault (·.skipped)
  | .object members fault => do skipMembers members; check fault (·.skipped)

/-- Passes over the items of a list. -/
def skipItems : List Node → Except TextError Unit
  | [] => .ok ()
  | item :: rest => do skip item; skipItems rest

/-- Passes over the members of an object. -/
def skipMembers : List (Except TextError String × Node) → Except TextError Unit
  | [] => .ok ()
  | (_, node) :: rest => do skip node; skipMembers rest

end

end Node

/-- The number of levels of containers that a value read from a text may have. -/
def maxDepth : Nat := 127

/-- Reads a text as a value. -/
def parse (text : String) : Except TextError Json := do
  let (node, more) := Node.ofText text
  let value ← node.keep maxDepth
  if more then throw .trailingCharacters
  return value

end CrudUi.Json
