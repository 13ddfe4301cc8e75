import CrudUi.Json.Numeral
import CrudUi.Text.Hex

/-!
# Tokens of a JSON text

`Token.ofText` cuts a text into tokens, up to the first that is broken.  The value of a string
or a numeral may be refused where it is kept although the text goes on behind it: a surrogate
without its partner, a number out of range.
-/

namespace CrudUi.Json

open Text (hexDigit?)

/-- A token of a JSON text. -/
inductive Token where
  | openBrace
  | closeBrace
  | openBracket
  | closeBracket
  | colon
  | comma
  | null
  | bool (value : Bool)
  | number (value : Except TextError Number)
  | string (value : Except TextError String)
  /-- A string that breaks off. -/
  | brokenString (fault : Fault)
  /-- A numeral or a word that breaks off. -/
  | brokenScalar (fault : Fault)
  /-- A character that starts no token. -/
  | unknown

namespace Token

/-- A token and the text behind it. -/
structure Scanned where
  token : Token
  rest : List Char

/-- Whether fewer than four bytes are left. -/
private def endsWithinFour (cs : List Char) : Bool :=
  (cs.take 4).foldl (fun size c => size + c.utf8Size) 0 < 4

/-- The code unit that four hexadecimal digits stand for. -/
def unit? (a b c d : Char) : Option Nat := do
  return 4096 * (← hexDigit? a) + 256 * (← hexDigit? b) + 16 * (← hexDigit? c) + (← hexDigit? d)

/-- The character for a backslash followed by `c`. -/
def shortEscape? (c : Char) : Option Char :=
  match c with
  | '\x22' => some '\x22'
  | '\x5c' => some '\x5c'
  | '/' => some '/'
  | 'b' => some '\x08'
  | 'f' => some '\x0c'
  | 'n' => some '\n'
  | 'r' => some '\r'
  | 't' => some '\t'
  | _ => none

/-- Whether a code unit is the first half of a pair. -/
def isLead (n : Nat) : Bool := 0xD800 ≤ n ∧ n ≤ 0xDBFF

/-- Whether a code unit is the second half of a pair. -/
def isTrail (n : Nat) : Bool := 0xDC00 ≤ n ∧ n ≤ 0xDFFF

/-- What a string becomes once a kept value is refused at some point. -/
private def broken (refused : Option TextError) (error : TextError) : Token :=
  .brokenString ⟨refused.getD error, error⟩

/-- Reads a string behind its opening quote.  The characters so far are in `text`, reversed, and
`refused` is the first reason against its value. -/
def scanString (text : List Char) (refused : Option TextError) : List Char → Scanned
  | [] => ⟨broken refused .endInString, []⟩
  | '\x22' :: rest =>
    let value := match refused with
      | some error => .error error
      | none => .ok (String.ofList text.reverse)
    ⟨.string value, rest⟩
  | '\x5c' :: 'u' :: a :: b :: c :: d :: rest =>
    match unit? a b c d with
    | none =>
      let ends := endsWithinFour (a :: b :: c :: d :: rest)
      ⟨broken refused (if ends then .endInString else .invalidEscape), []⟩
    | some n =>
      if isTrail n then scanString text (refused.or (some .loneSurrogate)) rest
      else if !isLead n then scanString (Char.ofNat n :: text) refused rest
      else match rest with
        | '\x5c' :: 'u' :: e :: f :: g :: h :: after =>
          match unit? e f g h with
          | none => scanString text refused ('\x5c' :: 'u' :: e :: f :: g :: h :: after)
          | some m =>
            if isTrail m then
              scanString (Char.ofNat (0x10000 + 1024 * (n - 0xD800) + (m - 0xDC00)) :: text)
                refused after
            else scanString text (refused.or (some .loneSurrogate)) after
        | [] => ⟨broken refused .endInString, []⟩
        | ['\x5c'] => ⟨broken refused .endInString, []⟩
        | '\x5c' :: 'u' :: after => scanString text refused ('\x5c' :: 'u' :: after)
        | c :: after =>
          scanString text (refused.or (some .endOfHexEscape)) (c :: after)
  | '\x5c' :: 'u' :: rest =>
    ⟨broken refused (if endsWithinFour rest then .endInString else .invalidEscape), []⟩
  | '\x5c' :: c :: rest =>
    match shortEscape? c with
    | some escaped => scanString (escaped :: text) refused rest
    | none => ⟨broken refused .invalidEscape, []⟩
  | ['\x5c'] => ⟨broken refused .endInString, []⟩
  | c :: rest =>
    if c.toNat < 0x20 then ⟨broken refused .controlCharacter, []⟩
    else scanString (c :: text) refused rest
termination_by cs => cs.length

/-- The digits at the start of a text, and what follows them. -/
def digits (cs : List Char) : List Nat × List Char :=
  ((cs.takeWhile Char.isDigit).map fun c => c.toNat - '0'.toNat, cs.dropWhile Char.isDigit)

/-- A numeral that breaks off: at the end of the text, or before another character. -/
private def brokenNumeral (rest : List Char) : Scanned :=
  if rest.isEmpty then ⟨.brokenScalar ⟨.endInValue, .invalidNumber⟩, []⟩
  else ⟨.brokenScalar (.both .invalidNumber), []⟩

/-- Reads the exponent of a numeral, if there is one. -/
def scanExponent (numeral : Numeral) (cs : List Char) : Scanned :=
  let marked (down : Bool) (cs : List Char) : Scanned :=
    match digits cs with
    | ([], rest) => brokenNumeral rest
    | (ds, rest) => ⟨.number { numeral with exponent := some (down, ds) }.value, rest⟩
  match cs with
  | 'e' :: '-' :: rest | 'E' :: '-' :: rest => marked true rest
  | 'e' :: '+' :: rest | 'E' :: '+' :: rest => marked false rest
  | 'e' :: rest | 'E' :: rest => marked false rest
  | _ => ⟨.number numeral.value, cs⟩

/-- Reads the digits behind the point of a numeral, if there is one, and the exponent. -/
def scanFraction (numeral : Numeral) (cs : List Char) : Scanned :=
  match cs with
  | '.' :: rest => match digits rest with
    | ([], rest) => brokenNumeral rest
    | (ds, rest) => scanExponent { numeral with fraction := some ds } rest
  | _ => scanExponent numeral cs

/-- Reads a numeral behind its sign. -/
def scanNumeral (negative : Bool) (cs : List Char) : Scanned :=
  match digits cs with
  | ([], rest) => brokenNumeral rest
  | (0 :: _ :: _, _) => ⟨.brokenScalar (.both .invalidNumber), []⟩
  | (ds, rest) => scanFraction ⟨negative, ds, none, none⟩ rest

/-- Reads the rest of a word. -/
def scanWord (token : Token) : List Char → List Char → Scanned
  | [], cs => ⟨token, cs⟩
  | _ :: _, [] => ⟨.brokenScalar (.both .endInValue), []⟩
  | expected :: word, c :: cs =>
    if c = expected then scanWord token word cs else ⟨.brokenScalar (.both .expectedIdent), []⟩

/-- Whether a character only separates tokens. -/
def isBlank (c : Char) : Bool :=
  c = ' ' || c = '\n' || c = '\t' || c = '\r'

/-- Reads the token that starts with `c`. -/
def scan (c : Char) (cs : List Char) : Scanned :=
  match c with
  | '\x7b' => ⟨.openBrace, cs⟩
  | '\x7d' => ⟨.closeBrace, cs⟩
  | '[' => ⟨.openBracket, cs⟩
  | ']' => ⟨.closeBracket, cs⟩
  | ':' => ⟨.colon, cs⟩
  | ',' => ⟨.comma, cs⟩
  | '\x22' => scanString [] none cs
  | '-' => scanNumeral true cs
  | 'n' => scanWord .null ['u', 'l', 'l'] cs
  | 't' => scanWord (.bool true) ['r', 'u', 'e'] cs
  | 'f' => scanWord (.bool false) ['a', 'l', 's', 'e'] cs
  | _ => if c.isDigit then scanNumeral false (c :: cs) else ⟨.unknown, cs⟩

private theorem length_rest_scanString (text : List Char) (refused : Option TextError)
    (cs : List Char) : (scanString text refused cs).rest.length ≤ cs.length := by
  fun_induction scanString text refused cs <;> simp only [List.length_cons, List.length_nil] at * <;>
    omega

private theorem length_digits (cs : List Char) : (digits cs).2.length ≤ cs.length :=
  (List.dropWhile_sublist _).length_le

private theorem length_rest_brokenNumeral (cs : List Char) :
    (brokenNumeral cs).rest.length ≤ cs.length := by
  unfold brokenNumeral
  split <;> simp

private theorem length_rest_scanExponent (numeral : Numeral) (cs : List Char) :
    (scanExponent numeral cs).rest.length ≤ cs.length := by
  unfold scanExponent
  grind [length_digits, length_rest_brokenNumeral]

private theorem length_rest_scanFraction (numeral : Numeral) (cs : List Char) :
    (scanFraction numeral cs).rest.length ≤ cs.length := by
  unfold scanFraction
  grind [length_digits, length_rest_brokenNumeral, length_rest_scanExponent]

private theorem length_rest_scanNumeral (negative : Bool) (cs : List Char) :
    (scanNumeral negative cs).rest.length ≤ (digits cs).2.length := by
  unfold scanNumeral
  grind [length_rest_brokenNumeral, length_rest_scanFraction]

private theorem length_rest_scanWord (token : Token) (word cs : List Char) :
    (scanWord token word cs).rest.length ≤ cs.length := by
  fun_induction scanWord token word cs <;> grind

/-- Every token takes at least its first character. -/
private theorem length_rest_scan (c : Char) (cs : List Char) :
    (scan c cs).rest.length ≤ cs.length := by
  unfold scan
  split <;> try simp only [Nat.le_refl]
  · exact length_rest_scanString ..
  · exact Nat.le_trans (length_rest_scanNumeral ..) (length_digits cs)
  · exact length_rest_scanWord ..
  · exact length_rest_scanWord ..
  · exact length_rest_scanWord ..
  · split
    · rename_i h
      refine Nat.le_trans (length_rest_scanNumeral ..) ?_
      simpa [digits, h] using length_digits cs
    · exact Nat.le_refl _

/-- The tokens of a text. -/
def ofChars : List Char → List Token
  | [] => []
  | c :: cs =>
    if isBlank c then ofChars cs else (scan c cs).token :: ofChars (scan c cs).rest
termination_by cs => cs.length
decreasing_by
  · simp
  · exact Nat.lt_succ_of_le (length_rest_scan c cs)

/-- The tokens of a text. -/
def ofText (text : String) : List Token :=
  ofChars text.toList

end Token

end CrudUi.Json
