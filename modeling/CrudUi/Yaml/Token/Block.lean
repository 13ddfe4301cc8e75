import CrudUi.Yaml.Token.Scalar

/-!
# Block texts

A block text stands on lines of its own, behind a `|`, which keeps its line breaks, or a `>`, which
folds those between lines that do not start with a blank.  A `-` drops the line breaks at its end
and a `+` keeps them all; without either one of them is kept.
-/

namespace CrudUi.Yaml

/-- What becomes of the line breaks at the end of a block text. -/
inductive Chomping where
  | strip
  | clip
  | keep
  deriving DecidableEq, Repr

/-- The chomping that a sign stands for. -/
def Chomping.ofChar? (c : Char) : Option Chomping :=
  if c = '-' then some .strip else if c = '+' then some .keep else none

/-- The signs behind the `|` or `>`: the chomping, and the number of columns by which the text is
indented, if it is given. -/
structure BlockHeader where
  chomping : Chomping := .clip
  increment : Option Nat := none

/-- Reads an indentation digit, which may not be zero. -/
private def scanDigit (cells : List Cell) : Option (Option Nat × List Cell) :=
  let c := peek cells
  if c.isDigit then if c = '0' then none else some (some (c.toNat - '0'.toNat), cells.drop 1)
  else some (none, cells)

/-- Reads a chomping sign. -/
private def scanChomping (cells : List Cell) : Option Chomping × List Cell :=
  match Chomping.ofChar? (peek cells) with
  | some chomping => (some chomping, cells.drop 1)
  | none => (none, cells)

/-- Reads the signs behind the `|` or `>`, in either order. -/
def scanBlockHeader (cells : List Cell) : Option (Scanned BlockHeader) := do
  match scanChomping cells with
  | (some chomping, cells) =>
    let (increment, cells) ← scanDigit cells
    return ⟨⟨chomping, increment⟩, cells⟩
  | (none, cells) =>
    let (increment, cells) ← scanDigit cells
    match increment with
    | some _ =>
      let (chomping, cells) := scanChomping cells
      return ⟨⟨chomping.getD .clip, increment⟩, cells⟩
    | none => return ⟨{}, cells⟩

/-- Reads the rest of a line that holds nothing but blanks and a comment. -/
def scanLineEnd (cells : List Cell) : Option (List Cell) :=
  let cells := cells.dropWhile fun cell => isBlank cell.char
  let cells :=
    if peek cells = '#' then cells.dropWhile fun cell => !isBreakOrEnd cell.char else cells
  if isBreak (peek cells) then some (cells.drop 1)
  else if peek cells = endMark then some cells
  else none

/-- The lines before one that is not empty: their line breaks, reversed, and the greatest column
that was reached. -/
structure Margin where
  breaks : List Char
  reached : Nat

/-- Passes over empty lines and over the indentation.  Without a given column every space counts as
indentation. -/
def scanMargin (column : Option Nat) (margin : Margin) : List Cell → Option (Scanned Margin)
  | [] => none
  | cell :: rest =>
    let before := match column with
      | some column => cell.column < column
      | none => true
    if before && cell.char = ' ' then scanMargin column margin rest
    else
      let reached := max margin.reached cell.column
      if before && cell.char = '\t' then none
      else if isBreak cell.char then scanMargin column ⟨cell.char :: margin.breaks, reached⟩ rest
      else some ⟨⟨margin.breaks, reached⟩, cell :: rest⟩

/-- What was read of a block text: the text, reversed, the line break behind its last line, those
behind it, reversed, and whether the last line starts with a blank. -/
structure BlockText where
  text : List Char := []
  lineBreak : List Char := []
  breaks : List Char := []
  startsBlank : Bool := false

namespace BlockText

/-- The text with the line breaks in front of a next line. -/
def joined (block : BlockText) (literal startsBlank : Bool) : List Char :=
  if !literal && block.lineBreak = ['\n'] && !block.startsBlank && !startsBlank then
    if block.breaks.isEmpty then ' ' :: block.text else block.breaks ++ block.text
  else block.breaks ++ block.lineBreak ++ block.text

/-- The text without the line breaks at its end that are dropped. -/
def chomped (block : BlockText) (chomping : Chomping) : String :=
  let text := match chomping with
    | .strip => block.text
    | .clip => block.lineBreak ++ block.text
    | .keep => block.breaks ++ block.lineBreak ++ block.text
  String.ofList text.reverse

end BlockText

/-- Reads the lines of a block text that stand at a column. -/
def scanBlockLines (literal : Bool) (column : Nat) (block : BlockText) (cells : List Cell) :
    Option (Scanned BlockText) :=
  match cells with
  | [] => none
  | cell :: rest =>
    if cell.column ≠ column || cell.char = endMark then some ⟨block, cell :: rest⟩
    else
      let startsBlank := isBlank cell.char
      let line := (cell :: rest).takeWhile fun cell => !isBreakOrEnd cell.char
      let after := (cell :: rest).dropWhile fun cell => !isBreakOrEnd cell.char
      let lineBreak := if isBreak (peek after) then [peek after] else []
      match scanMargin (some column) ⟨[], 0⟩ (after.drop lineBreak.length) with
      | none => none
      | some ⟨margin, next⟩ =>
        let block : BlockText := {
          text := (chars line).reverse ++ block.joined literal startsBlank
          lineBreak, breaks := margin.breaks, startsBlank }
        if _h : next.length ≤ rest.length then scanBlockLines literal column block next
        else none
termination_by cells.length

/-- Reads a block text behind its `|` or `>`, in a block at the column `indent`. -/
def scanBlock (literal : Bool) (indent : Int) (cells : List Cell) : Option (Scanned String) := do
  let header ← scanBlockHeader cells
  let cells ← scanLineEnd header.rest
  let given := header.value.increment.map fun increment => (max indent 0).toNat + increment
  let margin ← scanMargin given ⟨[], 0⟩ cells
  let column := given.getD (max (max margin.value.reached (indent + 1).toNat) 1)
  let block ← scanBlockLines literal column { breaks := margin.value.breaks } margin.rest
  return ⟨block.value.chomped header.value.chomping, block.rest⟩

end CrudUi.Yaml
