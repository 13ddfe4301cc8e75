import CrudUi.Text.Hex
import CrudUi.Yaml.Cell

/-!
# Texts without and with quotes

A text may run over several lines: a single line break reads as a space, and of several the first
is dropped.  Blanks around line breaks are dropped as well.
-/

namespace CrudUi.Yaml

/-- What was read, and the cells behind it. -/
structure Scanned (α : Type) where
  value : α
  rest : List Cell

/-- Blanks and line breaks that were met and may still turn out to belong to a text.  All are
reversed. -/
inductive Gap where
  | blanks (cs : List Char)
  /-- Line breaks, the first of which is folded. -/
  | lines (breaks : List Char)
  /-- Line breaks behind one that was escaped; none of them is folded. -/
  | escaped (breaks : List Char)

namespace Gap

/-- No gap. -/
def empty : Gap := .blanks []

/-- Whether there is no gap. -/
def isEmpty : Gap → Bool
  | .blanks cs => cs.isEmpty
  | _ => false

/-- Whether a line has ended in the gap. -/
def hasLines : Gap → Bool
  | .blanks _ => false
  | _ => true

/-- Adds a blank, which counts only before the first line break. -/
def addBlank (c : Char) : Gap → Gap
  | .blanks cs => .blanks (c :: cs)
  | gap => gap

/-- Adds a line break. -/
def addBreak (c : Char) : Gap → Gap
  | .blanks _ => .lines [c]
  | .lines breaks => .lines (c :: breaks)
  | .escaped breaks => .escaped (c :: breaks)

/-- What a gap inside a text stands for, reversed. -/
def folded : Gap → List Char
  | .blanks cs => cs
  | .lines breaks => match breaks.reverse with
    | ['\n'] => [' ']
    | '\n' :: more => more.reverse
    | _ => breaks
  | .escaped breaks => breaks

end Gap

/-! ### Plain texts -/

/-- A plain text, and whether a line ended behind it. -/
structure Plain where
  text : String
  endsLine : Bool

/-- Whether a plain text ends before a cell, given the character behind it. -/
def endsPlain (inFlow : Bool) (c next : Char) : Bool :=
  c = endMark || (c = ':' && isBlankOrEnd next) || (inFlow && isFlowIndicator c)

/-- Whether a gap is the end of a plain text. -/
def endsPlainAfterGap (inFlow : Bool) (indent : Int) (cells : List Cell) : Bool :=
  match cells with
  | [] => true
  | cell :: _ =>
    (!inFlow && cell.column < indent) || startsWithDocumentMark cells || cell.char = '#'

/-- Reads a plain text.  Outside brackets its lines stand at the column `indent` or beyond. -/
def scanPlain (inFlow : Bool) (indent : Int) (text : List Char) (gap : Gap) :
    List Cell → Option (Scanned Plain)
  | [] => none
  | cell :: rest =>
    let finish := some ⟨⟨String.ofList text.reverse, gap.hasLines⟩, cell :: rest⟩
    if isBlank cell.char then
      if gap.hasLines && cell.column < indent && cell.char = '\t' then none
      else scanPlain inFlow indent text (gap.addBlank cell.char) rest
    else if isBreak cell.char then
      scanPlain inFlow indent text (gap.addBreak cell.char) rest
    else if !gap.isEmpty && endsPlainAfterGap inFlow indent (cell :: rest) then finish
    else if inFlow && cell.char = ':' && (isFlowIndicator (peek rest) || peek rest = '?') then none
    else if endsPlain inFlow cell.char (peek rest) then finish
    else scanPlain inFlow indent (cell.char :: (gap.folded ++ text)) .empty rest

/-! ### Quoted texts -/

/-- The character for a backslash followed by a letter or a sign. -/
def escape? (c : Char) : Option Char :=
  match c with
  | '0' => some '\x00'
  | 'a' => some '\x07'
  | 'b' => some '\x08'
  | 't' | '\t' => some '\t'
  | 'n' => some '\n'
  | 'v' => some '\x0b'
  | 'f' => some '\x0c'
  | 'r' => some '\r'
  | 'e' => some '\x1b'
  | ' ' => some ' '
  | '\x22' => some '\x22'
  | '/' => some '/'
  | '\x5c' => some '\x5c'
  | 'N' => some (Char.ofNat 0x85)
  | '_' => some (Char.ofNat 0xA0)
  | 'L' => some (Char.ofNat 0x2028)
  | 'P' => some (Char.ofNat 0x2029)
  | _ => none

/-- The number of hexadecimal digits behind a backslash and a letter. -/
def escapeDigits? (c : Char) : Option Nat :=
  match c with
  | 'x' => some 2
  | 'u' => some 4
  | 'U' => some 8
  | _ => none

/-- The character of a number, unless it is half of a pair or too great. -/
def charOf? (n : Nat) : Option Char :=
  if n.isValidChar then some (Char.ofNat n) else none

/-- The escaped character behind a backslash, and the number of cells that it takes. -/
def readEscape (cells : List Cell) : Option (Char × Nat) :=
  match escape? (peek cells), escapeDigits? (peek cells) with
  | some c, _ => some (c, 1)
  | none, some count => do
    let digits := chars ((cells.drop 1).take count)
    if digits.length = count ∧ digits.all (Text.hexDigit? · |>.isSome) then
      return (← charOf? (Text.hexNumber digits), count + 1)
    else none
  | none, none => none

/-- Reads a text behind its opening quote. -/
def scanQuoted (single : Bool) (text : List Char) (gap : Gap) (cells : List Cell) :
    Option (Scanned String) :=
  match cells with
  | [] => none
  | cell :: rest =>
    if isBlank cell.char then scanQuoted single text (gap.addBlank cell.char) rest
    else if isBreak cell.char then scanQuoted single text (gap.addBreak cell.char) rest
    else if cell.char = endMark || startsWithDocumentMark (cell :: rest) then none
    else
      let text := gap.folded ++ text
      if single then
        if cell.char = '\x27' then
          match rest with
          | [] => none
          | next :: after =>
            if next.char = '\x27' then scanQuoted single ('\x27' :: text) .empty after
            else some ⟨String.ofList text.reverse, rest⟩
        else scanQuoted single (cell.char :: text) .empty rest
      else if cell.char = '\x22' then some ⟨String.ofList text.reverse, rest⟩
      else if cell.char = '\x5c' then
        if isBreak (peek rest) then scanQuoted single text (.escaped []) (rest.drop 1)
        else match readEscape rest with
          | some (c, taken) => scanQuoted single (c :: text) .empty (rest.drop taken)
          | none => none
      else scanQuoted single (cell.char :: text) .empty rest
termination_by cells.length

end CrudUi.Yaml
