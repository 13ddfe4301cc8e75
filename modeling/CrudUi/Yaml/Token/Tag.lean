import CrudUi.Text.Hex
import CrudUi.Text.Utf8
import CrudUi.Yaml.Token
import CrudUi.Yaml.Token.Block

/-!
# Anchors, tags and directives

An anchor names a node and an alias repeats it.  A tag says how a node is to be read; its handle
is short for a longer text, which the `%TAG` directive may give.
-/

namespace CrudUi.Yaml

/-- Whether a character may stand in a name. -/
def isNameChar (c : Char) : Bool :=
  c.isAlphanum || c = '_' || c = '-'

/-- Cuts off the longest part of which all characters satisfy a condition. -/
def scanWhile (condition : Char → Bool) (cells : List Cell) : Scanned (List Char) :=
  ⟨chars (cells.takeWhile fun cell => condition cell.char),
    cells.dropWhile fun cell => condition cell.char⟩

/-- Passes over blanks. -/
def dropBlanks (cells : List Cell) : List Cell :=
  (scanWhile isBlank cells).rest

/-- Reads the name of an anchor or an alias, behind its sign. -/
def scanName (cells : List Cell) : Option (Scanned String) :=
  let name := scanWhile isNameChar cells
  let next := peek name.rest
  if name.value.isEmpty then none
  else if isBlankOrEnd next || next ∈ ['?', ':', ',', ']', '\x7d', '%', '@', '\x60'] then
    some ⟨String.ofList name.value, name.rest⟩
  else none

/-! ### Tags -/

/-- Whether a character may stand in the suffix of a tag; a longer one may also hold commas and
brackets. -/
def isTagChar (long : Bool) (c : Char) : Bool :=
  isNameChar c || (long && c ∈ [',', '[', ']']) ||
    c ∈ [';', '/', '?', ':', '@', '&', '=', '+', '$', '.', '!', '~', '*', '\x27', '(', ')']

/-- The number of bytes of a character that starts with a byte. -/
def sequenceLength? (byte : Nat) : Option Nat :=
  if byte < 0x80 then some 1
  else if byte < 0xC0 then none
  else if byte < 0xE0 then some 2
  else if byte < 0xF0 then some 3
  else if byte < 0xF8 then some 4
  else none

/-- Reads the bytes of an escaped character; `more` of them are still to come. -/
def scanEscapedBytes (bytes : List UInt8) (more : Nat) : List Cell → Option (Scanned (List UInt8))
  | percent :: high :: low :: rest => do
    if percent.char ≠ '%' then none
    else
      let byte := 16 * (← Text.hexDigit? high.char) + (← Text.hexDigit? low.char)
      let more ← if bytes.isEmpty then sequenceLength? byte
        else if 0x80 ≤ byte ∧ byte < 0xC0 then some more else none
      let bytes := bytes ++ [UInt8.ofNat byte]
      if more ≤ 1 then return ⟨bytes, rest⟩ else scanEscapedBytes bytes (more - 1) rest
  | _ => none

/-- Reads the suffix of a tag. -/
def scanTagText (long : Bool) (text : List Char) (cells : List Cell) :
    Option (Scanned (List Char)) :=
  match cells with
  | [] => some ⟨text, []⟩
  | cell :: rest =>
    if isTagChar long cell.char then scanTagText long (text ++ [cell.char]) rest
    else if cell.char = '%' then
      match scanEscapedBytes [] 0 (cell :: rest) with
      | some ⟨bytes, after⟩ =>
        if _h : after.length ≤ rest.length then
          scanTagText long (text ++ Text.Utf8.decodeLossy bytes) after
        else none
      | none => none
    else some ⟨text, cell :: rest⟩
termination_by cells.length

/-- Reads the suffix of a tag, which may not be empty. -/
def scanSuffix (long : Bool) (cells : List Cell) : Option (Scanned (List Char)) := do
  let suffix ← scanTagText long [] cells
  if suffix.value.isEmpty then none else return suffix

/-- Reads a handle: exclamation marks at both ends, or only at the start. -/
def scanHandle (cells : List Cell) : Option (Scanned (List Char)) :=
  if peek cells = '!' then
    let name := scanWhile isNameChar (cells.drop 1)
    if peek name.rest = '!' then some ⟨'!' :: name.value ++ ['!'], name.rest.drop 1⟩
    else some ⟨'!' :: name.value, name.rest⟩
  else none

/-- Whether a handle has exclamation marks at both ends. -/
def isClosedHandle (handle : List Char) : Bool :=
  1 < handle.length && handle.getLast? = some '!'

/-- Reads a tag: `!<text>`, `!handle!suffix`, `!suffix` or `!`. -/
def scanTag (inFlow : Bool) (cells : List Cell) : Option (Scanned Token) := do
  let tag ← match cells with
    | _ :: ⟨'<', _, _, _⟩ :: rest => do
      let suffix ← scanSuffix true rest
      if peek suffix.rest = '>' then
        some ⟨Token.tag "" (String.ofList suffix.value), suffix.rest.drop 1⟩
      else none
    | _ => do
      let handle ← scanHandle cells
      if isClosedHandle handle.value then
        let suffix ← scanSuffix false handle.rest
        some ⟨Token.tag (String.ofList handle.value) (String.ofList suffix.value), suffix.rest⟩
      else
        let suffix ← scanTagText false (handle.value.drop 1) handle.rest
        some (if suffix.value.isEmpty then ⟨Token.tag "" "!", suffix.rest⟩
          else ⟨Token.tag "!" (String.ofList suffix.value), suffix.rest⟩)
  if isBlankOrEnd (peek tag.rest) || (inFlow && peek tag.rest = ',') then return tag else none

/-! ### Directives -/

/-- The greatest number of digits of a part of a version. -/
def maxVersionDigits : Nat := 9

/-- Reads a part of a version. -/
def scanVersionPart (cells : List Cell) : Option (Scanned Nat) :=
  let digits := scanWhile Char.isDigit cells
  if digits.value.isEmpty || maxVersionDigits < digits.value.length then none
  else some ⟨digits.value.foldl (fun n c => 10 * n + (c.toNat - '0'.toNat)) 0, digits.rest⟩

/-- Reads a version: two numbers with a point between them. -/
def scanVersion (cells : List Cell) : Option (Scanned Token) := do
  let major ← scanVersionPart (dropBlanks cells)
  if peek major.rest ≠ '.' then none
  else
    let minor ← scanVersionPart (major.rest.drop 1)
    return ⟨.version major.value minor.value, minor.rest⟩

/-- Reads a handle and what it is short for. -/
def scanTagDirective (cells : List Cell) : Option (Scanned Token) := do
  let handle ← scanHandle (dropBlanks cells)
  if !(isClosedHandle handle.value || handle.value = ['!']) || !isBlank (peek handle.rest) then none
  else
    let stem ← scanSuffix true (dropBlanks handle.rest)
    if isBlankOrEnd (peek stem.rest) then
      return ⟨.tagDirective (String.ofList handle.value) (String.ofList stem.value), stem.rest⟩
    else none

/-- Reads a directive behind its percent sign, to the end of its line. -/
def scanDirective (cells : List Cell) : Option (Scanned Token) := do
  let name := scanWhile isNameChar cells
  if !isBlankOrEnd (peek name.rest) then none
  else
    let directive ← match String.ofList name.value with
      | "YAML" => scanVersion name.rest
      | "TAG" => scanTagDirective name.rest
      | _ => none
    return ⟨directive.value, ← scanLineEnd directive.rest⟩

end CrudUi.Yaml
