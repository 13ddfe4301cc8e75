/-!
# What is wrong with a JSON text

The reasons for which a text is not a JSON value, each with its wording.  A place in a text that
is passed over is checked less strictly than one whose value is kept, and sometimes for other
reasons; a `Fault` holds both.
-/

namespace CrudUi.Json

/-- A reason for which a text is no JSON value. -/
inductive TextError where
  | endInValue
  | endInList
  | endInObject
  | endInString
  | expectedValue
  | expectedIdent
  | expectedColon
  | expectedCommaOrBrace
  | expectedCommaOrBracket
  | keyNotString
  | trailingComma
  | trailingCharacters
  | invalidNumber
  | numberOutOfRange
  | invalidEscape
  | controlCharacter
  | loneSurrogate
  | endOfHexEscape
  | tooDeep
  deriving DecidableEq, Repr

/-- The wording of a reason. -/
def TextError.message : TextError → String
  | .endInValue => "EOF while parsing a value"
  | .endInList => "EOF while parsing a list"
  | .endInObject => "EOF while parsing an object"
  | .endInString => "EOF while parsing a string"
  | .expectedValue => "expected value"
  | .expectedIdent => "expected ident"
  | .expectedColon => "expected \x60:\x60"
  | .expectedCommaOrBrace => "expected \x60,\x60 or \x60\x7d\x60"
  | .expectedCommaOrBracket => "expected \x60,\x60 or \x60]\x60"
  | .keyNotString => "key must be a string"
  | .trailingComma => "trailing comma"
  | .trailingCharacters => "trailing characters"
  | .invalidNumber => "invalid number"
  | .numberOutOfRange => "number out of range"
  | .invalidEscape => "invalid escape"
  | .controlCharacter => "control character (\\u0000-\\u001F) found while parsing a string"
  | .loneSurrogate => "lone leading surrogate in hex escape"
  | .endOfHexEscape => "unexpected end of hex escape"
  | .tooDeep => "recursion limit exceeded"

/-- Where a text breaks off: the reason at a place whose value is kept, and at one that is
passed over. -/
structure Fault where
  kept : TextError
  skipped : TextError
  deriving DecidableEq, Repr

/-- A fault that has the same reason in both places. -/
def Fault.both (error : TextError) : Fault := ⟨error, error⟩

end CrudUi.Json
