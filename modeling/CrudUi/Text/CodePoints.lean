import CrudUi.Text.Hex
import CrudUi.Text.Split

/-!
# Tables of code points

The character classes and case maps of the Unicode standard are kept as tables of ranges, written
as text: `41-5a` is a range of code points in hexadecimal, `b5` a single one.
-/

namespace CrudUi.Text

/-- The entries of a table written as text, with blanks or line ends between them. -/
def tableEntries (text : String) : List String :=
  ((splitOn Char.isWhitespace text.toList).filter (!·.isEmpty)).map String.ofList

/-- Ascending, disjoint ranges of code points, ends included. -/
abbrev Ranges := List (Nat × Nat)

namespace Ranges

/-- One range from its text. -/
def range (text : String) : Nat × Nat :=
  match text.splitOn "-" with
  | [first, last] => (hexNumber first.toList, hexNumber last.toList)
  | _ => let only := hexNumber text.toList; (only, only)

/-- The ranges listed in a text. -/
def ofText (text : String) : Ranges :=
  (tableEntries text).map range

/-- Whether a code point lies in one of the ranges. -/
def contains : Ranges → Nat → Bool
  | [], _ => false
  | (first, last) :: rest, n => if n ≤ last then first ≤ n else contains rest n

end Ranges

end CrudUi.Text
