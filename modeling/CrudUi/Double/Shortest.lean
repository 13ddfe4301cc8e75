import CrudUi.Double

/-!
# The shortest decimal of a binary64 number

The decimals that read back to a number fill the interval half way to its two neighbours, ends
included when its significand is even.  `shortest` gives the decimal of fewest digits in that
interval, and of those the nearest to the number.  `text` writes it down.
-/

namespace CrudUi.Double

/-- A positive fraction, compared by cross multiplication. -/
private structure Fraction where
  num : Nat
  den : Nat

/-- `n · 2 ^ power` as a fraction. -/
private def Fraction.binary (n : Nat) (power : Int) : Fraction :=
  if power < 0 then ⟨n, Nat.pow 2 (-power).toNat⟩ else ⟨n * Nat.pow 2 power.toNat, 1⟩

/-- `n · 10 ^ power` as a fraction. -/
private def Fraction.decimal (n : Nat) (power : Int) : Fraction :=
  if power < 0 then ⟨n, Nat.pow 10 (-power).toNat⟩ else ⟨n * Nat.pow 10 power.toNat, 1⟩

private def Fraction.lt (a b : Fraction) : Bool :=
  a.num * b.den < b.num * a.den

private def Fraction.le (a b : Fraction) : Bool :=
  a.num * b.den ≤ b.num * a.den

/-- The distance between two fractions. -/
private def Fraction.distance (a b : Fraction) : Fraction :=
  let x := a.num * b.den
  let y := b.num * a.den
  ⟨if x < y then y - x else x - y, a.den * b.den⟩

/-- The power of ten of the leading digit. -/
private def Fraction.leadingPower (a : Fraction) : Int :=
  if a.den ≤ a.num then ((Nat.toDigits 10 (a.num / a.den)).length : Int) - 1
  else
    let length := (Nat.toDigits 10 (a.den / a.num)).length
    if a.den = a.num * Nat.pow 10 (length - 1) then -((length : Int) - 1) else -(length : Int)

/-- The interval of reals that round to a number other than zero. -/
private structure Interval where
  value : Fraction
  lower : Fraction
  upper : Fraction
  closed : Bool

private def Interval.contains (i : Interval) (a : Fraction) : Bool :=
  if i.closed then i.lower.le a && a.le i.upper else i.lower.lt a && a.lt i.upper

private def interval (d : Double) : Interval :=
  let m := d.significand
  let power := d.exponent - 2
  let below := if m = Nat.pow 2 (precision - 1) ∧ minExponent < d.exponent then 4 * m - 1
    else 4 * m - 2
  { value := .binary (4 * m) power
    lower := .binary below power
    upper := .binary (4 * m + 2) power
    closed := m % 2 == 0 }

/-- The better of the two neighbours of the value on the grid of multiples of `10 ^ power`, if
one of them lies in the interval.  An exact tie goes to the even digit. -/
private def onGrid (i : Interval) (power : Int) : Option Nat :=
  let scaled : Fraction :=
    if power < 0 then ⟨i.value.num * Nat.pow 10 (-power).toNat, i.value.den⟩
    else ⟨i.value.num, i.value.den * Nat.pow 10 power.toNat⟩
  let down := scaled.num / scaled.den
  let up := down + 1
  let hitsDown := i.contains (.decimal down power)
  let hitsUp := i.contains (.decimal up power)
  if hitsDown && hitsUp then
    let toDown := scaled.distance ⟨down, 1⟩
    let toUp := scaled.distance ⟨up, 1⟩
    if toDown.lt toUp then some down
    else if toUp.lt toDown then some up
    else some (down + down % 2)
  else if hitsDown then some down
  else if hitsUp then some up
  else none

/-- Moves the zeros at the end of a numeral into the power of ten. -/
private def dropZeros : Nat → Nat → Int → Nat × Int
  | 0, digits, power => (digits, power)
  | fuel + 1, digits, power =>
    if digits % 10 = 0 then dropZeros fuel (digits / 10) (power + 1) else (digits, power)

/-- The first grid, from coarse to fine, with a point in the interval. -/
private def firstGrid (i : Interval) (leading : Int) : Nat → Nat × Int
  | 0 => (0, 0)
  | left + 1 =>
    let power := leading - (16 - left : Nat)
    match onGrid i power with
    | some digits => dropZeros 20 digits power
    | none => firstGrid i leading left

/-- The shortest decimal `digits · 10 ^ power` that reads back to the magnitude of `d`. -/
def shortest (d : Double) : Nat × Int :=
  if d.significand = 0 then (0, 0)
  else
    let i := d.interval
    firstGrid i i.value.leadingPower 17

/-- The text of a number: the shortest decimal, with at least one digit after the point where
it is written positionally, which is the case for leading digits from `10 ^ -5` to `10 ^ 15`;
otherwise one digit before the point and a signed exponent. -/
def text (d : Double) : String :=
  let sign := if d.negative then "-" else ""
  let (digits, power) := d.shortest
  let numeral := Nat.toDigits 10 digits
  let leading : Int := power + numeral.length - 1
  let body :=
    if digits = 0 then "0.0"
    else if -5 ≤ leading ∧ leading < 16 then
      if 0 ≤ power then
        String.ofList (numeral ++ List.replicate power.toNat '0' ++ ['.', '0'])
      else
        let places := (-power).toNat
        let padded := List.replicate (places + 1 - numeral.length) '0' ++ numeral
        let whole := padded.take (padded.length - places)
        let fraction := padded.drop (padded.length - places)
        String.ofList (whole ++ '.' :: fraction)
    else
      let mantissa := match numeral with
        | first :: second :: rest => String.ofList (first :: '.' :: second :: rest)
        | _ => String.ofList numeral
      let mark := if leading < 0 then "e-" else "e+"
      mantissa ++ mark ++ toString leading.natAbs
  sign ++ body

end CrudUi.Double
