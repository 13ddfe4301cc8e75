import CrudUi.OpenApi.Document.Reading
import CrudUi.Yaml.Scalar
import CrudUi.Yaml.Tree

/-!
# Reading documents from YAML texts

A YAML text is read like a JSON value, but with rules of its own: names and texts are taken as they
are written, whatever a plain text may stand for; nothing stands for an empty table; and an alias
stands for its node.  Aliases are followed at most a hundred times for each mark in the text, and
values nest at most 128 levels deep.
-/

namespace CrudUi.Yaml

/-- A reading that counts the aliases it follows. -/
abbrev Reading := StateT Nat (Except DecodeError)

/-- A node, and the number of levels of lists and tables that it may have. -/
structure Placed where
  node : Node
  depth : Nat

/-- What nodes are read with. -/
structure Context where
  /-- The nodes of the anchors, the last one of a number first. -/
  targets : List (Nat × Node)
  /-- How often an alias may be followed. -/
  limit : Nat

/-- The number of levels of lists and tables that a value may have. -/
def maxDepth : Nat := 128

/-- How often an alias may be followed for each mark in the text. -/
def maxRepetition : Nat := 100

namespace Context

/-- The context of a root. -/
def ofRoot (root : Node) : Context :=
  ⟨root.anchored.reverse, maxRepetition * root.marks⟩

/-- The node that a node stands for. -/
def follow (context : Context) (node : Node) : Reading Node :=
  match node with
  | .alias anchor => do
    let count := (← get) + 1
    set count
    if context.limit < count then throw .yaml
    match context.targets.lookup anchor with
    | some target => return target
    | none => throw .yaml
  | node => return node

/-- The text of a node. -/
def text (context : Context) (node : Node) : Reading String := do
  match ← context.follow node with
  | .scalar _ _ text => return text
  | _ => throw .yaml

/-- Checks that a list or a table was read to its end. -/
def checkEnd (complete : Bool) : Reading Unit :=
  if complete then pure () else throw .yaml

/-- A node as a generic value of at most `depth` levels. -/
def keep (context : Context) (depth : Nat) (node : Node) : Reading Json := do
  match ← context.follow node with
  | .scalar props plain text => match readScalar props plain text with
    | some value => return value
    | none => throw .yaml
  | .list props items complete =>
    if isLocalTag props then throw .yaml
    match depth with
    | 0 => throw .yaml
    | depth + 1 =>
      let items ← items.mapM (keep context depth)
      checkEnd complete
      return .array items
  | .table props entries complete =>
    if isLocalTag props then throw .yaml
    match depth with
    | 0 => throw .yaml
    | depth + 1 =>
      let entries ← entries.mapM fun entry => do
        return (← context.text entry.1, ← keep context depth entry.2)
      checkEnd complete
      return .object (Entries.ofList entries)
  | .alias _ | .broken => throw .yaml

/-- A node that may be null. -/
def optional (context : Context) (placed : Placed) : Reading (Option Placed) := do
  let node ← context.follow placed.node
  match node with
  | .scalar props true text =>
    if props.tag = some "tag:yaml.org,2002:null" then
      if isNullText text then return none else throw .yaml
    else if props.tag.isNone && (text = "" || isNullText text) then return none
    else return some ⟨node, placed.depth⟩
  | .broken => throw .yaml
  | _ => return some ⟨node, placed.depth⟩

/-- The entries of a table.  Nothing stands for an empty one. -/
def contents (context : Context) (placed : Placed) : Reading (Contents Reading Placed) := do
  match ← context.follow placed.node, placed.depth with
  | .table _ entries complete, depth + 1 => return {
      entries := entries.map fun entry => (context.text entry.1, ⟨entry.2, depth⟩)
      finish := checkEnd complete
      length := none }
  | .scalar _ true "", _ => return { entries := [], finish := pure (), length := none }
  | _, _ => throw .yaml

/-- YAML texts as trees to be read. -/
def source (context : Context) : Source Reading Placed where
  keep placed := context.keep placed.depth placed.node
  skip placed := checkEnd placed.node.isComplete
  optional := context.optional
  text placed := context.text placed.node
  table := context.contents
  record _ := context.contents

end Context

end CrudUi.Yaml

namespace CrudUi

/-- Reads a document from a YAML text. -/
def Document.ofYamlText (text : String) : Except DocumentError Document :=
  Except.mapError .ofYamlText do
    let tree := Yaml.Tree.ofText text
    let source := (Yaml.Context.ofRoot tree.root).source
    let (document, _) ← (read source ⟨tree.root, Yaml.maxDepth⟩).run 0
    if tree.complete then return document else throw .yaml

end CrudUi
