/-!
# Characters with their places

The layout of a YAML text matters, so a text is read as a list of cells: its characters, each with
the number of characters before it, its line and its column.  Carriage returns, pairs of a carriage
return and a line feed, and U+0085 all read as a line feed; U+2028 and U+2029 break lines and stay
as they are.  Behind the last character stands a cell with U+0000, which no text may hold.
-/

namespace CrudUi.Yaml

/-- A character and its place. -/
structure Cell where
  char : Char
  index : Nat
  line : Nat
  column : Nat
  deriving DecidableEq, Repr

/-- Whether a character may stand in a text. -/
def isPrintable (c : Char) : Bool :=
  let n := c.toNat
  n = 0x09 || n = 0x0A || n = 0x0D || (0x20 ≤ n && n ≤ 0x7E) || n = 0x85 ||
    (0xA0 ≤ n && n ≤ 0xD7FF) || (0xE000 ≤ n && n ≤ 0xFFFD) || 0x10000 ≤ n

/-- The character that marks the end of a text. -/
def endMark : Char := '\x00'

/-- The mark that may stand at the start of a text. -/
def byteOrderMark : Char := Char.ofNat 0xFEFF

/-- Whether a character ends a line. -/
def isBreak (c : Char) : Bool :=
  c = '\n' || c = Char.ofNat 0x2028 || c = Char.ofNat 0x2029

/-- Whether a character is a space or a tab. -/
def isBlank (c : Char) : Bool :=
  c = ' ' || c = '\t'

/-- Whether a character ends a line or the text. -/
def isBreakOrEnd (c : Char) : Bool :=
  isBreak c || c = endMark

/-- Whether a character is a blank, or ends a line or the text. -/
def isBlankOrEnd (c : Char) : Bool :=
  isBlank c || isBreakOrEnd c

/-- Whether a character is a comma, a bracket or a brace, which end a plain text within brackets. -/
def isFlowIndicator (c : Char) : Bool :=
  c ∈ [',', '[', ']', '\x7b', '\x7d']

/-- The cells of a text from a place on. -/
def cellsFrom (index line column : Nat) : List Char → List Cell
  | [] => [⟨endMark, index, line, column⟩]
  | '\r' :: '\n' :: rest => ⟨'\n', index, line, column⟩ :: cellsFrom (index + 2) (line + 1) 0 rest
  | c :: rest =>
    let char := if c = '\r' || c = Char.ofNat 0x85 then '\n' else c
    ⟨char, index, line, column⟩ ::
      if isBreak char then cellsFrom (index + 1) (line + 1) 0 rest
      else cellsFrom (index + 1) line (column + 1) rest

/-- The cells of a text, unless a character may not stand in it. -/
def cells? (text : String) : Option (List Cell) :=
  if text.toList.all isPrintable then some (cellsFrom 0 0 0 text.toList) else none

/-- The first character. -/
def peek : List Cell → Char
  | [] => endMark
  | cell :: _ => cell.char

/-- The characters of cells. -/
def chars (cells : List Cell) : List Char :=
  cells.map Cell.char

/-- Whether `---` or `...`, followed by a blank or an end, stands at the start of a line. -/
def startsWithMark (mark : Char) : List Cell → Bool
  | a :: b :: c :: rest =>
    a.column = 0 && a.char = mark && b.char = mark && c.char = mark && isBlankOrEnd (peek rest)
  | _ => false

/-- Whether the line starts or ends a document. -/
def startsWithDocumentMark (cells : List Cell) : Bool :=
  startsWithMark '-' cells || startsWithMark '.' cells

end CrudUi.Yaml
