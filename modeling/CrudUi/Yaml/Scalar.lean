import CrudUi.Json
import CrudUi.Text.Hex
import CrudUi.Yaml.Node

/-!
# What a text stands for

A plain text may stand for a null, a truth value or a number.  A numeral with a zero in front of
other digits is a text; an integer of more than 64 but at most 128 bits is refused, and a longer one
is a binary64 number.  Infinities and what is not a number read as null.
-/

namespace CrudUi.Yaml

/-- Whether a text stands for a null.  The empty one does not, by itself. -/
def isNullText (text : String) : Bool :=
  text ∈ ["null", "Null", "NULL", "~"]

/-- The truth value that a text stands for. -/
def truth? (text : String) : Option Bool :=
  if text ∈ ["true", "True", "TRUE"] then some true
  else if text ∈ ["false", "False", "FALSE"] then some false
  else none

/-- Drops a sign from the front of a text. -/
def dropSign : List Char → List Char
  | '+' :: rest => rest
  | '-' :: rest => rest
  | text => text

/-- Whether a text consists of digits with a needless zero in front. -/
def hasNeedlessZero (text : String) : Bool :=
  match dropSign text.toList with
  | '0' :: c :: rest => (c :: rest).all Char.isDigit
  | _ => false

/-- The number that digits to a base stand for. -/
def digits? (base : Nat) (text : List Char) : Option Nat :=
  if text.isEmpty then none
  else text.foldlM (fun n c => do
    let digit ← Text.hexDigit? c
    if digit < base then some (base * n + digit) else none) 0

/-- The number that a text without a sign stands for, with or without a base in front. -/
def magnitude? (text : List Char) : Option Nat :=
  match text with
  | '0' :: 'x' :: digits => digits? 16 digits
  | '0' :: 'o' :: digits => digits? 8 digits
  | '0' :: 'b' :: digits => digits? 2 digits
  | _ => if hasNeedlessZero (String.ofList text) then none else digits? 10 text

/-- The integer that a text stands for. -/
def integer? (text : String) : Option Int :=
  match text.toList with
  | '-' :: rest => (magnitude? rest).map fun n => -(n : Int)
  | '+' :: rest => (magnitude? rest).map fun n => (n : Int)
  | rest => (magnitude? rest).map fun n => (n : Int)

/-- What an integer reads as. -/
inductive IntegerReading where
  | number (value : Int)
  /-- An integer of more than 64 bits, which is refused. -/
  | refused
  /-- Not as an integer. -/
  | other

/-- Reads a text as an integer. -/
def readInteger (text : String) : IntegerReading :=
  match integer? text with
  | some n =>
    if -(Nat.pow 2 63 : Int) ≤ n ∧ n < Nat.pow 2 64 then .number n
    else if -(Nat.pow 2 127 : Int) ≤ n ∧ n < Nat.pow 2 128 then .refused
    else .other
  | none => .other

/-- The digits at the start of a text, and what follows them. -/
private def splitDigits (text : List Char) : List Char × List Char :=
  (text.takeWhile Char.isDigit, text.dropWhile Char.isDigit)

/-- The number that decimal digits stand for. -/
private def digitsValue (digits : List Char) : Nat :=
  digits.foldl (fun n c => 10 * n + (c.toNat - '0'.toNat)) 0

/-- The exponent at the end of a numeral; zero if nothing is there. -/
private def exponent? (text : List Char) : Option Int :=
  match text with
  | [] => some 0
  | c :: rest =>
    if c = 'e' || c = 'E' then
      let digits := dropSign rest
      if digits.isEmpty || !digits.all Char.isDigit then none
      else if rest.head? = some '-' then some (-(digitsValue digits : Int))
      else some (digitsValue digits : Int)
    else none

/-- The finite binary64 number nearest to a decimal numeral without a sign. -/
private def decimal? (negative : Bool) (text : List Char) : Option Double := do
  let (whole, rest) := splitDigits text
  let (fraction, rest) := match rest with
    | '.' :: rest => splitDigits rest
    | _ => ([], rest)
  if whole.isEmpty && fraction.isEmpty then none
  else
    let exponent ← exponent? rest
    Double.ofDecimal negative (digitsValue (whole ++ fraction)) (exponent - fraction.length)

/-- The value of a numeral that need not be an integer: a number, or null for what is not
finite. -/
def readFloat (text : String) : Option Json :=
  if text ∈ [".inf", ".Inf", ".INF", "+.inf", "+.Inf", "+.INF", "-.inf", "-.Inf", "-.INF",
      ".nan", ".NaN", ".NAN"] then some .null
  else
    let float? := match text.toList with
      | '+' :: rest => decimal? false rest
      | '-' :: rest => decimal? true rest
      | rest => decimal? false rest
    float?.map fun value => .number (.float value)

/-- What a plain text stands for; none if it is refused. -/
def readPlain (text : String) : Option Json :=
  if text = "" || isNullText text then some .null
  else match truth? text with
    | some value => some (.bool value)
    | none => match readInteger text with
      | .number value => some (.number (.int value))
      | .refused => none
      | .other =>
        if hasNeedlessZero text then some (.string text)
        else some ((readFloat text).getD (.string text))

/-- What a text with a tag stands for; none if the tag does not fit. -/
def readTagged (tag text : String) : Option Json :=
  match tag with
  | "tag:yaml.org,2002:null" => if isNullText text then some .null else none
  | "tag:yaml.org,2002:bool" => (truth? text).map .bool
  | "tag:yaml.org,2002:int" => match readInteger text with
    | .number value => some (.number (.int value))
    | .refused | .other => none
  | "tag:yaml.org,2002:float" => readFloat text
  | _ => some (.string text)

/-- Whether a tag is one of the document's own. -/
def isLocalTag (props : Props) : Bool :=
  match props.tag with
  | some tag => ['!'].isPrefixOf tag.toList
  | none => false

/-- What a text stands for; none if it is refused. -/
def readScalar (props : Props) (plain : Bool) (text : String) : Option Json :=
  if isLocalTag props then none
  else match props.tag with
    | some tag => readTagged tag text
    | none => if plain then readPlain text else some (.string text)

end CrudUi.Yaml
