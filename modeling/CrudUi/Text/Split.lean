/-!
# Cutting a text at separators

`splitOn` cuts at every character that separates, so a text with `n` separators has `n + 1`
parts, which may be empty.
-/

namespace CrudUi.Text

/-- The parts of a text between separators. -/
def splitOn (separates : Char → Bool) : List Char → List (List Char)
  | [] => [[]]
  | c :: rest =>
    if separates c then [] :: splitOn separates rest
    else match splitOn separates rest with
      | [] => [[c]]
      | part :: others => (c :: part) :: others

theorem splitOn_ne_nil (separates : Char → Bool) (text : List Char) :
    splitOn separates text ≠ [] := by
  induction text with
  | nil => simp [splitOn]
  | cons c rest ih => grind [splitOn]

section Separator

variable {separator : Char} {text part : List Char}

theorem splitOn_of_notMem (h : separator ∉ text) : splitOn (· = separator) text = [text] := by
  induction text with
  | nil => rfl
  | cons c rest ih => grind [splitOn]

theorem notMem_of_mem_splitOn (hpart : part ∈ splitOn (· = separator) text) : separator ∉ part := by
  induction text generalizing part with
  | nil => simp_all [splitOn]
  | cons c rest ih => grind [splitOn]

/-- A separator ends the last part of what stands before it. -/
theorem splitOn_append_separator (before after : List Char) :
    splitOn (· = separator) (before ++ separator :: after) =
      splitOn (· = separator) before ++ splitOn (· = separator) after := by
  induction before with
  | nil => simp [splitOn]
  | cons c before ih => grind [splitOn, splitOn_ne_nil]

theorem splitOn_append_cons (hpart : separator ∉ part) (rest : List Char) :
    splitOn (· = separator) (part ++ separator :: rest) =
      part :: splitOn (· = separator) rest := by
  rw [splitOn_append_separator, splitOn_of_notMem hpart, List.singleton_append]

end Separator

end CrudUi.Text
