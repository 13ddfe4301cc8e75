/-!
# Nodes of a YAML text

A node is a text, a list, a table, or an alias for another node.  Where a text breaks off, the
nodes around the place are incomplete.
-/

namespace CrudUi.Yaml

/-- What stands in front of a node: the number of its anchor, and its tag. -/
structure Props where
  anchor : Option Nat := none
  tag : Option String := none
  deriving DecidableEq, Repr

/-- Whether nothing stands in front of the node. -/
def Props.isEmpty (props : Props) : Bool :=
  props.anchor.isNone && props.tag.isNone

/-- A node of a YAML text. -/
inductive Node where
  /-- A text.  Only a plain one, without quotes, may stand for something else. -/
  | scalar (props : Props) (plain : Bool) (text : String)
  | list (props : Props) (items : List Node) (complete : Bool)
  | table (props : Props) (entries : List (Node × Node)) (complete : Bool)
  /-- The node of a numbered anchor. -/
  | alias (anchor : Nat)
  /-- Here the text breaks off. -/
  | broken

namespace Node

/-- The node where nothing stands. -/
def empty (props : Props) : Node := .scalar props true ""

/-- The anchored node itself, if the properties have an anchor. -/
def marked (props : Props) (node : Node) : List (Nat × Node) :=
  match props.anchor with
  | some anchor => [(anchor, node)]
  | none => []

mutual

/-- The anchored nodes in the order in which they start. -/
def anchored : Node → List (Nat × Node)
  | .scalar props plain text => marked props (.scalar props plain text)
  | .list props items complete => marked props (.list props items complete) ++ anchoredItems items
  | .table props entries complete =>
    marked props (.table props entries complete) ++ anchoredEntries entries
  | .alias _ | .broken => []

/-- The anchored nodes of a list. -/
def anchoredItems : List Node → List (Nat × Node)
  | [] => []
  | item :: rest => item.anchored ++ anchoredItems rest

/-- The anchored nodes of a table. -/
def anchoredEntries : List (Node × Node) → List (Nat × Node)
  | [] => []
  | (key, value) :: rest => key.anchored ++ value.anchored ++ anchoredEntries rest

end

mutual

/-- Whether the text does not break off inside a node. -/
def isComplete : Node → Bool
  | .scalar _ _ _ | .alias _ => true
  | .list _ items complete => complete && itemsComplete items
  | .table _ entries complete => complete && entriesComplete entries
  | .broken => false

/-- Whether the text does not break off inside the items of a list. -/
def itemsComplete : List Node → Bool
  | [] => true
  | item :: rest => item.isComplete && itemsComplete rest

/-- Whether the text does not break off inside the entries of a table. -/
def entriesComplete : List (Node × Node) → Bool
  | [] => true
  | (key, value) :: rest => key.isComplete && value.isComplete && entriesComplete rest

end

mutual

/-- The number of marks in a node: one for a text or an alias, two for a list or a table. -/
def marks : Node → Nat
  | .scalar _ _ _ | .alias _ => 1
  | .list _ items _ => 2 + itemMarks items
  | .table _ entries _ => 2 + entryMarks entries
  | .broken => 0

/-- The number of marks in the items of a list. -/
def itemMarks : List Node → Nat
  | [] => 0
  | item :: rest => item.marks + itemMarks rest

/-- The number of marks in the entries of a table. -/
def entryMarks : List (Node × Node) → Nat
  | [] => 0
  | (key, value) :: rest => key.marks + value.marks + entryMarks rest

end

end Node

end CrudUi.Yaml
