import CrudUi.Double.Shortest
import CrudUi.Json

/-!
# Writing JSON

`compact` writes a value without blanks and `indented` over several lines, two blanks deeper for
each level.  In both, a string escapes the quote, the backslash and the control characters below
U+0020 only, members keep their order, and an empty container is `[]` or `{}`.
-/

namespace CrudUi

/-- The text of a number: decimal digits, or the shortest decimal of a binary64 number. -/
def Number.text : Number → String
  | .int value => toString value
  | .float value => value.text

namespace Json

/-- A character inside a JSON string. -/
def escapedChar (c : Char) : List Char :=
  match c with
  | '\x22' => ['\x5c', '\x22']
  | '\x5c' => ['\x5c', '\x5c']
  | '\x08' => ['\x5c', 'b']
  | '\t' => ['\x5c', 't']
  | '\n' => ['\x5c', 'n']
  | '\x0c' => ['\x5c', 'f']
  | '\r' => ['\x5c', 'r']
  | _ =>
    if c.toNat < 0x20 then
      ['\x5c', 'u', '0', '0', Nat.digitChar (c.toNat / 16), Nat.digitChar (c.toNat % 16)]
    else [c]

/-- A text as a JSON string. -/
def stringText (text : String) : String :=
  String.ofList ('\x22' :: text.toList.flatMap escapedChar ++ ['\x22'])

mutual

/-- The text of a value without blanks. -/
def compact : Json → String
  | .null => "null"
  | .bool true => "true"
  | .bool false => "false"
  | .number n => n.text
  | .string s => stringText s
  | .array items => "[" ++ compactItems items ++ "]"
  | .object entries => "\x7b" ++ compactEntries entries ++ "\x7d"

/-- The items of an array, separated by commas. -/
def compactItems : List Json → String
  | [] => ""
  | [item] => item.compact
  | item :: rest => item.compact ++ "," ++ compactItems rest

/-- The members of an object, separated by commas. -/
def compactEntries : List (String × Json) → String
  | [] => ""
  | [(key, value)] => stringText key ++ ":" ++ value.compact
  | (key, value) :: rest => stringText key ++ ":" ++ value.compact ++ "," ++ compactEntries rest

end

/-- A new line at a depth. -/
def newline (depth : Nat) : String :=
  String.ofList ('\n' :: List.replicate (2 * depth) ' ')

mutual

/-- The text of a value at a depth, one item or member to a line. -/
def indentedAt (depth : Nat) : Json → String
  | .null => "null"
  | .bool true => "true"
  | .bool false => "false"
  | .number n => n.text
  | .string s => stringText s
  | .array [] => "[]"
  | .array (item :: rest) =>
    "[" ++ indentedItems (depth + 1) (item :: rest) ++ newline depth ++ "]"
  | .object [] => "\x7b\x7d"
  | .object (entry :: rest) =>
    "\x7b" ++ indentedEntries (depth + 1) (entry :: rest) ++ newline depth ++ "\x7d"

/-- The items of an array, each on a line of its own. -/
def indentedItems (depth : Nat) : List Json → String
  | [] => ""
  | [item] => newline depth ++ item.indentedAt depth
  | item :: rest => newline depth ++ item.indentedAt depth ++ "," ++ indentedItems depth rest

/-- The members of an object, each on a line of its own. -/
def indentedEntries (depth : Nat) : List (String × Json) → String
  | [] => ""
  | [(key, value)] => newline depth ++ stringText key ++ ": " ++ value.indentedAt depth
  | (key, value) :: rest =>
    newline depth ++ stringText key ++ ": " ++ value.indentedAt depth ++ "," ++
      indentedEntries depth rest

end

/-- The text of a value over several lines. -/
def indented (value : Json) : String :=
  value.indentedAt 0

end Json

end CrudUi
