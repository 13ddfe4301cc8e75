import CrudUi.Json
import CrudUi.Json.TextError

/-!
# The value of a numeral

A numeral without a point or an exponent that fits 64 bits is an integer.  Every other one is a
binary64 number, computed as follows: digits are taken up as long as they fit an unsigned 64-bit
word, later digits before the point only count in the exponent and later ones behind it are
dropped; the word, as a binary64 number, is then multiplied or divided by a power of ten up to
`10 ^ 308` at a time, with a rounding at each step.
-/

namespace CrudUi.Json

/-- The parts of a numeral: its sign, the digits before and behind the point, and the sign and
the digits of the exponent. -/
structure Numeral where
  negative : Bool
  whole : List Nat
  fraction : Option (List Nat)
  exponent : Option (Bool × List Nat)

namespace Numeral

/-- The greatest unsigned 64-bit word. -/
def maxWord : Nat := Nat.pow 2 64 - 1

/-- Takes up digits as long as the word stays within 64 bits; also gives the number of digits
taken. -/
def takeDigits (word : Nat) : List Nat → Nat × Nat
  | [] => (word, 0)
  | digit :: rest =>
    if 10 * word + digit ≤ maxWord then
      let (result, taken) := takeDigits (10 * word + digit) rest
      (result, taken + 1)
    else (word, 0)

/-- A power of ten as a binary64 number. -/
private def powerOfTen (n : Nat) : Double :=
  (Double.ofNat? (Nat.pow 10 n)).getD (.zero false)

/-- Divides by `10 ^ power`, by at most `10 ^ 308` at a time. -/
private def divide (value : Double) (power : Nat) : Double :=
  if power ≤ 308 then (value.div? (powerOfTen power)).getD (.zero false)
  else if value.isZero then value
  else divide ((value.div? (powerOfTen 308)).getD (.zero false)) (power - 308)
termination_by power

/-- The binary64 number for `word · 10 ^ power`. -/
def scale (word : Nat) (power : Int) : Except TextError Double := do
  let value := (Double.ofNat? word).getD (.zero false)
  if power < 0 then return divide value (-power).toNat
  else if power ≤ 308 then
    match value.mul? (powerOfTen power.toNat) with
    | some result => return result
    | none => throw .numberOutOfRange
  else if value.isZero then return value
  else throw .numberOutOfRange

/-- The number that digits stand for. -/
private def digitsValue (digits : List Nat) : Nat :=
  digits.foldl (fun n digit => 10 * n + digit) 0

/-- An exponent beyond this bound counts as infinite. -/
private def maxExponent : Nat := Nat.pow 2 31 - 1

/-- The value of a numeral, or the reason for which it has none. -/
def value (numeral : Numeral) : Except TextError Number := do
  let signed (magnitude : Double) : Number :=
    .float (if numeral.negative then magnitude.neg else magnitude)
  let (whole, taken) := takeDigits 0 numeral.whole
  let dropped := numeral.whole.length - taken
  match numeral.fraction, numeral.exponent with
  | none, none =>
    if dropped = 0 then
      if !numeral.negative then return .int whole
      else if 0 < whole ∧ whole ≤ Nat.pow 2 63 then return .int (-(whole : Int))
      else return signed (← scale whole 0)
    else return signed (← scale whole dropped)
  | fraction, exponent =>
    let (word, places) := takeDigits whole (fraction.getD [])
    let start : Int := (dropped : Int) - places
    match exponent with
    | none => return signed (← scale word start)
    | some (down, digits) =>
      let size := digitsValue digits
      if maxExponent < size then
        if word ≠ 0 ∧ !down then throw .numberOutOfRange
        else return signed (.zero false)
      else return signed (← scale word (if down then start - size else start + size))

end Numeral

end CrudUi.Json
