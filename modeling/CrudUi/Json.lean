import CrudUi.Double
import CrudUi.Entries

/-!
# JSON values

A number is an integer of any size or a binary64 number; an object lists its members in order.
Objects that come from a text hold each name once, but the type does not demand it.
-/

namespace CrudUi

/-- A number: an integer, or a finite binary64 number. -/
inductive Number where
  | int (value : Int)
  | float (value : Double)
  deriving DecidableEq, Repr

/-- A JSON value. -/
inductive Json where
  | null
  | bool (value : Bool)
  | number (value : Number)
  | string (value : String)
  | array (items : List Json)
  | object (entries : List (String × Json))
  deriving Repr

/-- A row of named values. -/
abbrev Record := Entries Json

namespace Json

mutual

/-- Equality of values is decidable. -/
protected def decEq : (a b : Json) → Decidable (a = b)
  | .null, b => match b with
    | .null => isTrue rfl
    | .bool _ | .number _ | .string _ | .array _ | .object _ => isFalse nofun
  | .bool x, b => match b with
    | .bool y => decidable_of_iff (x = y) (by simp)
    | .null | .number _ | .string _ | .array _ | .object _ => isFalse nofun
  | .number x, b => match b with
    | .number y => decidable_of_iff (x = y) (by simp)
    | .null | .bool _ | .string _ | .array _ | .object _ => isFalse nofun
  | .string x, b => match b with
    | .string y => decidable_of_iff (x = y) (by simp)
    | .null | .bool _ | .number _ | .array _ | .object _ => isFalse nofun
  | .array xs, b => match b with
    | .array ys => @decidable_of_iff _ (xs = ys) (by simp) (Json.decEqItems xs ys)
    | .null | .bool _ | .number _ | .string _ | .object _ => isFalse nofun
  | .object xs, b => match b with
    | .object ys => @decidable_of_iff _ (xs = ys) (by simp) (Json.decEqEntries xs ys)
    | .null | .bool _ | .number _ | .string _ | .array _ => isFalse nofun

/-- Equality of lists of values is decidable. -/
protected def decEqItems : (as bs : List Json) → Decidable (as = bs)
  | [], [] => isTrue rfl
  | [], _ :: _ => isFalse nofun
  | _ :: _, [] => isFalse nofun
  | a :: as, b :: bs =>
    have := Json.decEq a b
    have := Json.decEqItems as bs
    decidable_of_iff (a = b ∧ as = bs) (by simp)

/-- Equality of lists of members is decidable. -/
protected def decEqEntries : (as bs : List (String × Json)) → Decidable (as = bs)
  | [], [] => isTrue rfl
  | [], _ :: _ => isFalse nofun
  | _ :: _, [] => isFalse nofun
  | (k, a) :: as, (l, b) :: bs =>
    have := Json.decEq a b
    have := Json.decEqEntries as bs
    decidable_of_iff ((k = l ∧ a = b) ∧ as = bs) (by simp)

end

instance : DecidableEq Json := Json.decEq

instance : Inhabited Json := ⟨.null⟩

/-- Whether the value is `null`. -/
def isNull : Json → Bool
  | .null => true
  | _ => false

/-- The text of a string. -/
def string? : Json → Option String
  | .string s => some s
  | _ => none

/-- Whether the value is a string. -/
def isString (value : Json) : Bool :=
  value.string?.isSome

/-- A list of strings. -/
def ofStrings (texts : List String) : Json :=
  .array (texts.map .string)

/-- A natural as a number. -/
def ofNat (n : Nat) : Json :=
  .number (.int n)

end Json

end CrudUi
