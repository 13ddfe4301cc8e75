import CrudUi.Json.Printing
import CrudUi.Yaml.Cell
import CrudUi.Yaml.Scalar

/-!
# Writing YAML

A value is written in blocks, two columns deeper for each level; a list under a name stays at the
column of the name.  A text is written plain where it would be read back as it is, else between
single or double quotes, or, with a line feed in it, as a block that keeps its line breaks.
-/

namespace CrudUi.Yaml

/-- How a text is written. -/
inductive ScalarStyle where
  | plain
  | single
  | double
  | literal
  deriving DecidableEq, Repr

/-! ### The choice of a style -/

/-- Whether a character is written as it is. -/
def isWritable (c : Char) : Bool :=
  let n := c.toNat
  n = 0x0A || (0x20 ≤ n && n ≤ 0x7E) || (0xA0 ≤ n && n ≤ 0xD7FF) ||
    (0xE000 ≤ n && n ≤ 0xFFFD && n ≠ 0xFEFF) || 0x10000 ≤ n

/-- The characters of a text with those behind them; behind the last one stands the end mark. -/
def withNext (text : List Char) : List (Char × Char) :=
  text.zip (text.drop 1 ++ [endMark])

/-- Whether two characters stand next to each other somewhere in a text. -/
def hasPair (first second : Char → Bool) (text : List Char) : Bool :=
  (withNext text).any fun (a, b) => first a && second b

/-- Whether a space stands before a line break. -/
def hasSpaceBeforeBreak (text : List Char) : Bool :=
  hasPair (· = ' ') isBreak text

/-- Whether a space stands behind a line break. -/
def hasSpaceAfterBreak (text : List Char) : Bool :=
  hasPair isBreak (· = ' ') text

/-- Whether a character is a space or a line break. -/
def isSpaceOrBreak (c : Char) : Bool :=
  c = ' ' || isBreak c

/-- Whether a text starts with a sign of its own. -/
def startsWithSign (text : List Char) : Bool :=
  match text with
  | '-' :: '-' :: '-' :: _ | '.' :: '.' :: '.' :: _ => true
  | [] => false
  | c :: rest =>
    c ∈ ['#', ',', '[', ']', '\x7b', '\x7d', '&', '*', '!', '|', '>', '\x27', '\x22', '%', '@',
      '\x60'] || (c ∈ ['?', ':', '-'] && isBlankOrEnd (rest.headD endMark))

/-- Whether a text could be taken for a name with a colon or for a comment. -/
def hasSign (text : List Char) : Bool :=
  startsWithSign text || hasPair (· = ':') isBlankOrEnd text || hasPair isBlankOrEnd (· = '#') text

/-- Whether a block may hold a text. -/
def allowsLiteral (text : List Char) : Bool :=
  text.all isWritable && text.getLast? ≠ some ' ' && !hasSpaceBeforeBreak text

/-- Whether single quotes may hold a text. -/
def allowsSingle (text : List Char) : Bool :=
  text.all isWritable && !hasSpaceBeforeBreak text && !hasSpaceAfterBreak text

/-- Whether a text may stand without quotes. -/
def allowsPlain (text : List Char) : Bool :=
  text.all isWritable && !text.any isBreak && text.head? ≠ some ' ' && text.getLast? ≠ some ' ' &&
    !hasSign text

/-- Whether a plain text would be read back as it is. -/
def readsBack (text : String) : Bool :=
  readPlain text = some (.string text) && !hasNeedlessZero text

/-- How a text is written. -/
def styleOf (text : String) : ScalarStyle :=
  let cs := text.toList
  if '\n' ∈ cs then if allowsLiteral cs then .literal else .double
  else if readsBack text && allowsPlain cs then .plain
  else if allowsSingle cs then .single
  else .double

/-! ### Texts -/

/-- Some spaces. -/
def spaces (count : Nat) : List Char :=
  List.replicate count ' '

/-- The lines of a text with `indent` spaces in front of each that is not empty; the first line is
indented only if `fresh`. -/
def indentLines (indent : Nat) (fresh : Bool) : List Char → List Char
  | [] => []
  | c :: rest =>
    if isBreak c then c :: indentLines indent true rest
    else if fresh then spaces indent ++ c :: indentLines indent false rest
    else c :: indentLines indent false rest

/-- A text between single quotes. -/
def singleQuoted (indent : Nat) (text : List Char) : List Char :=
  let body := indentLines indent false (text.flatMap fun c => if c = '\x27' then [c, c] else [c])
  let closing := if (text.getLast?.map isBreak).getD false then spaces indent else []
  '\x27' :: body ++ closing ++ ['\x27']

/-- The hexadecimal digits of a number, to a width. -/
def hexDigits (width n : Nat) : List Char :=
  let digits := (Nat.toDigits 16 n).map Char.toUpper
  List.replicate (width - digits.length) '0' ++ digits

/-- A character between double quotes. -/
def doubleQuotedChar (c : Char) : List Char :=
  let n := c.toNat
  match c with
  | '\x00' => ['\x5c', '0']
  | '\x07' => ['\x5c', 'a']
  | '\x08' => ['\x5c', 'b']
  | '\t' => ['\x5c', 't']
  | '\n' => ['\x5c', 'n']
  | '\x0b' => ['\x5c', 'v']
  | '\x0c' => ['\x5c', 'f']
  | '\r' => ['\x5c', 'r']
  | '\x1b' => ['\x5c', 'e']
  | '\x22' => ['\x5c', '\x22']
  | '\x5c' => ['\x5c', '\x5c']
  | _ =>
    if n = 0x85 then ['\x5c', 'N']
    else if n = 0x2028 then ['\x5c', 'L']
    else if n = 0x2029 then ['\x5c', 'P']
    else if isWritable c then [c]
    else if n ≤ 0xFF then '\x5c' :: 'x' :: hexDigits 2 n
    else if n ≤ 0xFFFF then '\x5c' :: 'u' :: hexDigits 4 n
    else '\x5c' :: 'U' :: hexDigits 8 n

/-- A text between double quotes. -/
def doubleQuoted (text : List Char) : List Char :=
  '\x22' :: text.flatMap doubleQuotedChar ++ ['\x22']

/-- The signs behind the bar of a block: the number of columns if the text starts with a space or a
line break, and what is to become of the line breaks at its end. -/
def literalSigns (text : List Char) : List Char :=
  (if (text.head?.map isSpaceOrBreak).getD false then ['2'] else []) ++
    match text.reverse with
    | last :: more =>
      if !isBreak last then ['-']
      else if (more.head?.map isBreak).getD true then ['+']
      else []
    | [] => ['-']

/-- A text as a block. -/
def literal (indent : Nat) (text : List Char) : List Char :=
  '|' :: literalSigns text ++ '\n' :: indentLines indent true text

/-- A text in its style; its lines stand at the column `indent`. -/
def scalarText (indent : Nat) (text : String) : String :=
  let cs := text.toList
  String.ofList <| match styleOf text with
    | .plain => cs
    | .single => singleQuoted indent cs
    | .double => doubleQuoted cs
    | .literal => literal indent cs

/-! ### Values -/

/-- A new line at a column, behind a text that may have ended its line already. -/
def newLine (column : Nat) (before : String) : String :=
  let ended := (before.toList.getLast?.map isBreak).getD false
  String.ofList ((if ended then [] else ['\n']) ++ spaces column)

/-- The greatest number of bytes of a name that stands before its colon on one line. -/
def maxNameLength : Nat := 128

/-- Whether a character ends a line in any text, be it one that is written as an escape. -/
def isAnyBreak (c : Char) : Bool :=
  isBreak c || c = '\r' || c = Char.ofNat 0x85

/-- Whether a name stands before its colon on one line. -/
def isSimpleName (name : String) : Bool :=
  name.utf8ByteSize ≤ maxNameLength && !name.toList.any isAnyBreak

/-- Between the colon behind a name and its value: a list or a table that is not empty starts on a
line of its own. -/
def behindColon (column : Nat) : Json → String
  | .array (_ :: _) => newLine column ""
  | .object (_ :: _) => newLine (column + 2) ""
  | _ => " "

/-- The column of a value behind a name at a column. -/
def valueColumn (column : Nat) : Json → Nat
  | .array _ => column
  | _ => column + 2

mutual

/-- A value at a column, without the spaces in front of its first line. -/
def block (column : Nat) : Json → String
  | .null => "null"
  | .bool true => "true"
  | .bool false => "false"
  | .number n => n.text
  | .string text => scalarText column text
  | .array [] => "[]"
  | .array (item :: rest) => blockItems column (item :: rest)
  | .object [] => "\x7b\x7d"
  | .object (entry :: rest) => blockEntries column (entry :: rest)

/-- The items of a list, each behind a dash. -/
def blockItems (column : Nat) : List Json → String
  | [] => ""
  | [item] => "- " ++ block (column + 2) item
  | item :: rest =>
    let text := "- " ++ block (column + 2) item
    text ++ newLine column text ++ blockItems column rest

/-- An entry of a table.  A name that is too long for one line stands behind a question mark. -/
def blockEntry (column : Nat) : String × Json → String
  | (name, value) =>
    let nameText := scalarText (column + 2) name
    if isSimpleName name then
      nameText ++ ":" ++ behindColon column value ++ block (valueColumn column value) value
    else
      let text := "? " ++ nameText
      text ++ newLine column text ++ ": " ++ block (column + 2) value

/-- The entries of a table. -/
def blockEntries (column : Nat) : List (String × Json) → String
  | [] => ""
  | [entry] => blockEntry column entry
  | entry :: rest =>
    let text := blockEntry column entry
    text ++ newLine column text ++ blockEntries column rest

end

/-- The text of a value. -/
def render (value : Json) : String :=
  let text := match value with
    | .array _ | .object _ => block 0 value
    | _ => block 2 value
  text ++ newLine 0 text

end CrudUi.Yaml
