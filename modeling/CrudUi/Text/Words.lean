import CrudUi.Text.CaseMap
import CrudUi.Text.Letters
import CrudUi.Text.Split

/-!
# Words of an identifier

An identifier falls apart at every character that is not alphanumeric, and each such piece falls
apart at changes of case: after a lower-case letter before an upper-case one (`userId`), and
before the last letter of an upper-case run that a lower-case letter follows (`HTTPServer`).
-/

namespace CrudUi.Text

/-- The case of the letters that the current word ends with. -/
private inductive WordCase where
  | unknown
  | lower
  | upper
  deriving DecidableEq

/-- Splits a piece without separators.  The word read so far is `word`, reversed. -/
private def splitPiece (word : List Char) (current : WordCase) : List Char → List (List Char)
  | [] => []
  | [c] => [(c :: word).reverse]
  | c :: next :: rest =>
    let after : WordCase :=
      if isLowercase c then .lower else if isUppercase c then .upper else current
    if after = .lower ∧ isUppercase next then
      (c :: word).reverse :: splitPiece [] .unknown (next :: rest)
    else if current = .upper ∧ isUppercase c ∧ isLowercase next then
      word.reverse :: splitPiece [c] .unknown (next :: rest)
    else splitPiece (c :: word) after (next :: rest)

/-- The words of a text. -/
def words (text : List Char) : List (List Char) :=
  (splitOn (fun c => !isAlphanumeric c) text).flatMap (splitPiece [] .unknown)

/-- The letters after the first of a word: lower case, with the final form of a sigma at the
end. -/
private def lowerTail : List Char → List Char
  | [] => []
  | ['Σ'] => ['ς']
  | c :: rest => lowerChar c ++ lowerTail rest

/-- A word with its first letter in upper case and the others in lower case. -/
def capitalize : List Char → List Char
  | [] => []
  | c :: rest => upperChar c ++ lowerTail rest

end CrudUi.Text
