import CrudUi.Yaml.Token.Tag

/-!
# From a text to its tokens

A colon turns what stands before it on its line into a key, which is known only once the colon is
met.  So a place where a key may have started is kept open, with the tokens behind it held back; at
most one place is open for each level of brackets.  When the colon comes, the tokens for the start
of a table and of a key are put in front of those that were held back.

Outside brackets, columns decide where lists and tables start and end.

## Main definitions

* `Layout.step` : reads one token, with those that the indentation adds.
* `Token.ofText` : the tokens of a text, as far as they can be read.
-/

namespace CrudUi.Yaml

/-- A place where a key may have started. -/
structure OpenKey where
  place : Cell
  /-- Whether nothing but a key may stand at the place. -/
  required : Bool
  /-- The tokens behind the place, reversed. -/
  held : List Token := []

/-- The number of characters that a key may have. -/
def maxKeyLength : Nat := 1024

/-- Whether a place is too far back for a key: on another line, or more than 1024 characters. -/
def OpenKey.isStale (key : OpenKey) (cell : Cell) : Bool :=
  key.place.line < cell.line || key.place.index + maxKeyLength < cell.index

namespace OpenKey

/-- Puts tokens, which are reversed, behind the innermost open place, or into `out`. -/
def put (tokens : List Token) (out : List Token) :
    List (Option OpenKey) → List (Option OpenKey) × List Token
  | [] => ([], tokens ++ out)
  | none :: keys =>
    let (keys, out) := put tokens out keys
    (none :: keys, out)
  | some key :: keys => (some { key with held := tokens ++ key.held } :: keys, out)

/-- Closes the open places that satisfy a condition, which may not be required ones. -/
def close (condition : OpenKey → Bool) (out : List Token) :
    List (Option OpenKey) → Option (List (Option OpenKey) × List Token)
  | [] => some ([], out)
  | slot :: keys => do
    let (keys, out) ← close condition out keys
    match slot with
    | none => return (none :: keys, out)
    | some key =>
      if !condition key then return (some key :: keys, out)
      else if key.required then none
      else
        let (keys, out) := put key.held out keys
        return (none :: keys, out)

end OpenKey

/-- How far a text has been read. -/
structure Layout where
  rest : List Cell
  /-- The tokens before every open place, reversed. -/
  out : List Token := []
  /-- For each level of brackets, from the innermost, the place where a key may have started. -/
  keys : List (Option OpenKey) := [none]
  /-- The column of the innermost block, and those of the blocks around it. -/
  indent : Int := -1
  outer : List Int := []
  /-- Whether a key may start here. -/
  allowed : Bool := true

namespace Layout

/-- Whether the place is within brackets. -/
def inFlow (layout : Layout) : Bool :=
  1 < layout.keys.length

/-- The cell that comes next. -/
def cell (layout : Layout) : Cell :=
  layout.rest.headD ⟨endMark, 0, 0, 0⟩

/-- The column of the cell that comes next. -/
def column (layout : Layout) : Nat :=
  layout.cell.column

/-- Adds a token. -/
def emit (layout : Layout) (token : Token) : Layout :=
  let (keys, out) := OpenKey.put [token] layout.out layout.keys
  { layout with keys, out }

/-- Goes on behind a number of cells. -/
def skip (layout : Layout) (count : Nat) : Layout :=
  { layout with rest := layout.rest.drop count }

/-- Closes the places that have become too far back. -/
def closeStale (layout : Layout) : Option Layout := do
  let (keys, out) ← OpenKey.close (·.isStale layout.cell) layout.out layout.keys
  return { layout with keys, out }

/-- Closes the innermost open place. -/
def closeKey (layout : Layout) : Option Layout :=
  match layout.keys with
  | some key :: keys =>
    if key.required then none
    else
      let (keys, out) := OpenKey.put key.held layout.out keys
      some { layout with keys := none :: keys, out }
  | _ => some layout

/-- Opens the place for a key, if one may start here. -/
def openKey (layout : Layout) : Option Layout := do
  if layout.allowed then
    let layout ← layout.closeKey
    let key : OpenKey :=
      ⟨layout.cell, !layout.inFlow && layout.indent = layout.column, []⟩
    return { layout with keys := some key :: layout.keys.drop 1 }
  else return layout

/-- Starts a block at a column, unless the innermost block already stands there or beyond. -/
def startBlock (layout : Layout) (column : Nat) (start : Token) : Layout :=
  if layout.inFlow || column ≤ layout.indent then layout
  else { layout.emit start with indent := column, outer := layout.indent :: layout.outer }

/-- Ends the blocks beyond a column, given the columns of the blocks around the innermost. -/
def endBlocksFrom (column : Int) (layout : Layout) : List Int → Layout
  | [] => layout
  | outer :: more =>
    if column < layout.indent then
      endBlocksFrom column { layout.emit .blockEnd with indent := outer, outer := more } more
    else layout

/-- Ends the blocks beyond a column. -/
def endBlocks (layout : Layout) (column : Int) : Layout :=
  if layout.inFlow then layout else endBlocksFrom column layout layout.outer

/-- Passes over blanks, comments and line ends.  Behind a line end outside brackets a key may
start. -/
def dropSpace (inFlow : Bool) (allowed inComment : Bool) : List Cell → List Cell × Bool
  | [] => ([], allowed)
  | cell :: rest =>
    if isBreak cell.char then dropSpace inFlow (allowed || !inFlow) false rest
    else if inComment && cell.char ≠ endMark then dropSpace inFlow allowed true rest
    else if cell.char = '#' then dropSpace inFlow allowed true rest
    else if cell.char = ' ' || (cell.char = '\t' && (inFlow || !allowed)) ||
        (cell.char = byteOrderMark && cell.index = 0) then
      dropSpace inFlow allowed false rest
    else (cell :: rest, allowed)

/-- Adds a token that takes a number of cells. -/
def sign (layout : Layout) (token : Token) (count : Nat) (allowed : Bool) : Layout :=
  { (layout.skip count).emit token with allowed }

/-- Adds a token that was read. -/
def scanned (layout : Layout) (token : Token) (rest : List Cell) (allowed : Bool) : Layout :=
  { layout.emit token with rest, allowed }

/-- The end of the text. -/
def finish (layout : Layout) : Option Layout := do
  let layout := (← (layout.endBlocks (-1)).closeKey).emit .streamEnd
  let (keys, out) ← OpenKey.close (fun _ => true) layout.out layout.keys
  return { layout with keys, out, rest := [] }

/-- A mark at the start of a line that starts or ends a document. -/
def documentMark (layout : Layout) (token : Token) : Option Layout := do
  return (← (layout.endBlocks (-1)).closeKey).sign token 3 false

/-- A directive. -/
def directive (layout : Layout) : Option Layout := do
  let layout ← (layout.endBlocks (-1)).closeKey
  let directive ← scanDirective (layout.rest.drop 1)
  return layout.scanned directive.value directive.rest false

/-- An opening bracket. -/
def opening (layout : Layout) (token : Token) : Option Layout := do
  let layout := (← layout.openKey).sign token 1 true
  return { layout with keys := none :: layout.keys }

/-- A closing bracket. -/
def closing (layout : Layout) (token : Token) : Option Layout := do
  let layout ← layout.closeKey
  let layout := if layout.inFlow then { layout with keys := layout.keys.drop 1 } else layout
  return layout.sign token 1 false

/-- A comma within brackets. -/
def comma (layout : Layout) : Option Layout := do
  return (← layout.closeKey).sign .comma 1 true

/-- The dash in front of an item. -/
def item (layout : Layout) : Option Layout := do
  if !layout.inFlow && !layout.allowed then none
  else
    let layout := layout.startBlock layout.column .blockListStart
    return (← layout.closeKey).sign .item 1 true

/-- The question mark in front of a key. -/
def explicitKey (layout : Layout) : Option Layout := do
  if !layout.inFlow && !layout.allowed then none
  else
    let layout := layout.startBlock layout.column .blockTableStart
    return (← layout.closeKey).sign .key 1 (!layout.inFlow)

/-- The colon behind a key, or in front of a value without one. -/
def value (layout : Layout) : Option Layout :=
  match layout.keys with
  | some key :: keys =>
    let layout := { layout with keys := none :: keys }.startBlock key.place.column .blockTableStart
    let layout := layout.emit .key
    let (keys, out) := OpenKey.put key.held layout.out layout.keys
    some ({ layout with keys, out }.sign .value 1 false)
  | _ =>
    if layout.inFlow then some (layout.sign .value 1 false)
    else if layout.allowed then
      some ((layout.startBlock layout.column .blockTableStart).sign .value 1 true)
    else none

/-- An anchor or an alias. -/
def named (layout : Layout) (token : String → Token) : Option Layout := do
  let layout ← layout.openKey
  let name ← scanName (layout.rest.drop 1)
  return layout.scanned (token name.value) name.rest false

/-- A tag. -/
def tag (layout : Layout) : Option Layout := do
  let layout ← layout.openKey
  let tag ← scanTag layout.inFlow layout.rest
  return layout.scanned tag.value tag.rest false

/-- A block text. -/
def block (layout : Layout) (literal : Bool) : Option Layout := do
  let layout ← layout.closeKey
  let text ← scanBlock literal layout.indent (layout.rest.drop 1)
  return layout.scanned (.scalar false text.value) text.rest true

/-- A quoted text. -/
def quoted (layout : Layout) (single : Bool) : Option Layout := do
  let layout ← layout.openKey
  let text ← scanQuoted single [] .empty (layout.rest.drop 1)
  return layout.scanned (.scalar false text.value) text.rest false

/-- A plain text. -/
def plain (layout : Layout) : Option Layout := do
  let layout ← layout.openKey
  let text ← scanPlain layout.inFlow (layout.indent + 1) [] .empty layout.rest
  return layout.scanned (.scalar true text.value.text) text.rest text.value.endsLine

/-- Whether a plain text may start with a character, given the one behind it. -/
def startsPlain (inFlow : Bool) (c next : Char) : Bool :=
  if c = '-' then !isBlank next
  else if c = '?' || c = ':' then !inFlow && !isBlankOrEnd next
  else !isBlankOrEnd c && !isFlowIndicator c &&
    c ∉ ['#', '&', '*', '!', '|', '>', '\x27', '\x22', '%', '@', '\x60']

/-- Reads the token that comes next, with those that the indentation adds. -/
def step (layout : Layout) : Option Layout := do
  let (rest, allowed) := dropSpace layout.inFlow layout.allowed false layout.rest
  let layout ← { layout with rest, allowed }.closeStale
  let layout := layout.endBlocks layout.column
  let next := peek (rest.drop 1)
  let atLineStart := layout.column = 0
  match peek rest with
  | '\x00' => layout.finish
  | c =>
    if c = '%' && atLineStart then layout.directive
    else if startsWithMark '-' rest then layout.documentMark .documentStart
    else if startsWithMark '.' rest then layout.documentMark .documentEnd
    else if c = '[' then layout.opening .openBracket
    else if c = '\x7b' then layout.opening .openBrace
    else if c = ']' then layout.closing .closeBracket
    else if c = '\x7d' then layout.closing .closeBrace
    else if c = ',' then layout.comma
    else if c = '-' && isBlankOrEnd next then layout.item
    else if c = '?' && (layout.inFlow || isBlankOrEnd next) then layout.explicitKey
    else if c = ':' && (layout.inFlow || isBlankOrEnd next) then layout.value
    else if c = '*' then layout.named .alias
    else if c = '&' then layout.named .anchor
    else if c = '!' then layout.tag
    else if c = '|' && !layout.inFlow then layout.block true
    else if c = '>' && !layout.inFlow then layout.block false
    else if c = '\x27' then layout.quoted true
    else if c = '\x22' then layout.quoted false
    else if startsPlain layout.inFlow c next then layout.plain
    else none

/-- Reads tokens as long as there are any.  What a step adds counts only if no required key is left
without its colon behind it. -/
def run (layout : Layout) : List Token :=
  match layout.step with
  | none => layout.out.reverse
  | some next =>
    if next.rest.isEmpty then next.out.reverse
    else match next.closeStale with
      | none => layout.out.reverse
      | some settled =>
        if _h : settled.rest.length < layout.rest.length then run settled else layout.out.reverse
termination_by layout.rest.length

end Layout

/-- The tokens of a text up to the first thing that is wrong.  If nothing is, the last one is the
end of the text. -/
def Token.ofText (text : String) : List Token :=
  match cells? text with
  | some cells => Layout.run { rest := cells }
  | none => []

end CrudUi.Yaml
