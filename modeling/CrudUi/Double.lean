/-!
# Finite binary64 numbers

A `Double` is a sign, a significand and a binary exponent; its value is
`± significand · 2 ^ exponent`.  Arithmetic is exact on the fractions involved and rounded once,
to the nearest number with ties to the even significand (`ofRatio`).  A result that would be
infinite is `none`.
-/

namespace CrudUi

/-- A finite binary64 number.  Normal numbers have a significand of 53 bits; zero and the
subnormal numbers have the least exponent. -/
structure Double where
  negative : Bool
  significand : Nat
  exponent : Int
  deriving DecidableEq, Repr

namespace Double

/-- The least exponent, that of the subnormal numbers. -/
def minExponent : Int := -1074

/-- The greatest exponent of a finite number. -/
def maxExponent : Int := 971

/-- The number of bits of a significand. -/
def precision : Nat := 53

/-- The quotient of two naturals rounded to the nearest natural, ties to even. -/
def roundQuotient (num den : Nat) : Nat :=
  let quotient := num / den
  let remainder := num % den
  if 2 * remainder < den then quotient
  else if den < 2 * remainder then quotient + 1
  else quotient + quotient % 2

/-- Zero of either sign. -/
def zero (negative : Bool) : Double := ⟨negative, 0, minExponent⟩

/-- `num / den` as a multiple of `2 ^ exponent`, rounded. -/
private def quotientAt (num den : Nat) (exponent : Int) : Nat :=
  if exponent < 0 then roundQuotient (num * Nat.pow 2 (-exponent).toNat) den
  else roundQuotient num (den * Nat.pow 2 exponent.toNat)

/-- The exponent at which the significand of `num / den` has the full number of bits, but not
below the least one. -/
private def exponentFor (num den : Nat) : Int :=
  let guess : Int := (Nat.log2 num : Int) - Nat.log2 den - precision
  let floorAt (exponent : Int) : Nat :=
    if exponent < 0 then num * Nat.pow 2 (-exponent).toNat / den
    else num / (den * Nat.pow 2 exponent.toNat)
  let exact := if floorAt guess < Nat.pow 2 precision then guess else guess + 1
  max exact minExponent

/-- The number nearest to `± num / den`; `none` beyond the finite range. -/
def ofRatio (negative : Bool) (num den : Nat) : Option Double :=
  if num = 0 then some (zero negative)
  else
    let exponent := exponentFor num den
    let significand := quotientAt num den exponent
    let rounded : Double :=
      if significand = Nat.pow 2 precision then ⟨negative, Nat.pow 2 (precision - 1), exponent + 1⟩
      else ⟨negative, significand, exponent⟩
    if maxExponent < rounded.exponent then none else some rounded

/-- The number nearest to `± num / den · 2 ^ power`. -/
private def ofScaledRatio (negative : Bool) (num den : Nat) (power : Int) : Option Double :=
  if power < 0 then ofRatio negative num (den * Nat.pow 2 (-power).toNat)
  else ofRatio negative (num * Nat.pow 2 power.toNat) den

/-- The number nearest to a natural. -/
def ofNat? (n : Nat) : Option Double :=
  ofRatio false n 1

/-- The rounded product. -/
def mul? (a b : Double) : Option Double :=
  ofScaledRatio (a.negative != b.negative) (a.significand * b.significand) 1
    (a.exponent + b.exponent)

/-- The rounded quotient; `none` for a divisor of zero. -/
def div? (a b : Double) : Option Double :=
  if b.significand = 0 then none
  else ofScaledRatio (a.negative != b.negative) a.significand b.significand
    (a.exponent - b.exponent)

/-- Changes the sign. -/
def neg (a : Double) : Double :=
  { a with negative := !a.negative }

/-- Whether the number is zero, of either sign. -/
def isZero (a : Double) : Bool :=
  a.significand == 0

/-- The number nearest to `± digits · 10 ^ power`.  Far outside the range of the format the
power of ten is not computed. -/
def ofDecimal (negative : Bool) (digits : Nat) (power : Int) : Option Double :=
  if digits = 0 then some (zero negative)
  else
    let magnitude : Int := power + (Nat.toDigits 10 digits).length
    if 400 < magnitude then none
    else if magnitude < -400 then some (zero negative)
    else if power < 0 then ofRatio negative digits (Nat.pow 10 (-power).toNat)
    else ofRatio negative (digits * Nat.pow 10 power.toNat) 1

end Double

end CrudUi
