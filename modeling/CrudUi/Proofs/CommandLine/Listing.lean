import CrudUi.CommandLine.FileTree
import Mathlib.Data.List.Sort
import Mathlib.Data.String.Basic

/-!
# The order of files in a listing

Files are listed in the order of the names that lead to them, which is a linear order
(`isListedBefore_total`, `isListedBefore_trans`, `isListedBefore_antisymm`).  So a listing is
determined by the files that it lists.
-/

namespace CrudUi

variable {names others more : List String}

theorem isListedBefore_cons_iff {name other : String} :
    isListedBefore (name :: names) (other :: others) ↔
      name < other ∨ name = other ∧ isListedBefore names others := by
  simp [isListedBefore]

theorem isListedBefore_total (names others : List String) :
    isListedBefore names others || isListedBefore others names := by
  induction names generalizing others with
  | nil => simp [isListedBefore]
  | cons name names ih =>
    cases others with
    | nil => simp [isListedBefore]
    | cons other others =>
      have hrest := ih others
      rw [Bool.or_eq_true] at hrest ⊢
      rw [isListedBefore_cons_iff, isListedBefore_cons_iff]
      rcases lt_trichotomy name other with hlt | rfl | hlt
      · exact .inl (.inl hlt)
      · exact hrest.imp (fun h => .inr ⟨rfl, h⟩) fun h => .inr ⟨rfl, h⟩
      · exact .inr (.inl hlt)

theorem isListedBefore_trans (h : isListedBefore names others)
    (hmore : isListedBefore others more) : isListedBefore names more := by
  induction names generalizing others more with
  | nil => simp [isListedBefore]
  | cons name names ih =>
    cases others with
    | nil => simp [isListedBefore] at h
    | cons other others =>
      cases more with
      | nil => simp [isListedBefore] at hmore
      | cons another more =>
        rw [isListedBefore_cons_iff] at h hmore ⊢
        rcases h with hlt | ⟨rfl, h⟩ <;> rcases hmore with hlt' | ⟨rfl, hmore⟩
        · exact .inl (hlt.trans hlt')
        · exact .inl hlt
        · exact .inl hlt'
        · exact .inr ⟨rfl, ih h hmore⟩

theorem isListedBefore_antisymm (h : isListedBefore names others)
    (h' : isListedBefore others names) : names = others := by
  induction names generalizing others with
  | nil =>
    cases others with
    | nil => rfl
    | cons => simp [isListedBefore] at h'
  | cons name names ih =>
    cases others with
    | nil => simp [isListedBefore] at h
    | cons other others =>
      rw [isListedBefore_cons_iff] at h h'
      rcases h with hlt | ⟨rfl, h⟩ <;> rcases h' with hlt' | ⟨heq, h'⟩
      · exact absurd hlt' (lt_asymm hlt)
      · exact absurd hlt (heq ▸ lt_irrefl _)
      · exact absurd hlt' (lt_irrefl _)
      · rw [ih h h']

theorem isListedBefore_append_left (directory names others : List String) :
    isListedBefore (directory ++ names) (directory ++ others) = isListedBefore names others := by
  induction directory with
  | nil => rfl
  | cons name directory ih => simp [isListedBefore, ih]

/-- Listings with the same files are the same. -/
theorem eq_of_pairwise_isListedBefore {files files' : List (List String)}
    (h : files.Pairwise (isListedBefore · ·)) (h' : files'.Pairwise (isListedBefore · ·))
    (hnodup : files.Nodup) (hnodup' : files'.Nodup)
    (hmem : ∀ names, names ∈ files ↔ names ∈ files') : files = files' :=
  ((List.perm_ext_iff_of_nodup hnodup hnodup').mpr hmem).eq_of_pairwise
    (fun _ _ _ _ => isListedBefore_antisymm) h h'

theorem FileTree.pairwise_filesBelow (tree : FileTree) (position : List String) :
    (tree.filesBelow position).Pairwise (isListedBefore · ·) :=
  @List.pairwise_mergeSort _ isListedBefore (fun _ _ _ => isListedBefore_trans)
    isListedBefore_total _

end CrudUi
