import CrudUi.Ascending
import Mathlib.Data.List.Sort
import Mathlib.Data.String.Basic
import Mathlib.Order.Bounds.Basic

/-!
# Ascending lists by their members

An ascending list is determined by its members, and so is the least member of any list.  Whatever
is read off a list of names by sorting it or by taking the least therefore does not depend on the
order of the list (`Ascending.ofList_congr`, `Ascending.least?_congr`).
-/

namespace CrudUi.Ascending

variable {names names' : List String}

theorem eq_of_mem_iff (h : names.Pairwise (· < ·)) (h' : names'.Pairwise (· < ·))
    (hmem : ∀ name, name ∈ names ↔ name ∈ names') : names = names' :=
  ((List.perm_ext_iff_of_nodup h.nodup h'.nodup).mpr hmem).eq_of_pairwise
    (fun _ _ _ _ hlt hgt => absurd hgt (lt_asymm hlt)) h h'

theorem ofList_congr (h : ∀ name, name ∈ names ↔ name ∈ names') : ofList names = ofList names' :=
  eq_of_mem_iff (pairwise_ofList names) (pairwise_ofList names') fun name => by
    rw [mem_ofList, mem_ofList, h]

/-! ### The least member -/

theorem foldl_eq_some_foldl_min {step : Option String → String → Option String}
    (hstep : ∀ best name, step (some best) name = some (min best name)) (names : List String)
    (best : String) : names.foldl step (some best) = some (names.foldl min best) := by
  induction names generalizing best with
  | nil => rfl
  | cons name rest ih => rw [List.foldl_cons, List.foldl_cons, hstep, ih]

/-- The search for the least name takes the minimum over and over. -/
theorem least?_eq_min? (names : List String) : least? names = names.min? := by
  cases names with
  | nil => rfl
  | cons name rest =>
    refine foldl_eq_some_foldl_min (fun best name => ?_) rest name
    by_cases hless : name < best
    · simp [hless, min_eq_right hless.le]
    · simp [hless, min_eq_left (not_lt.mp hless)]

theorem least?_eq_some_iff {name : String} :
    least? names = some name ↔ name ∈ names ∧ ∀ other ∈ names, name ≤ other := by
  rw [least?_eq_min?, List.min?_eq_some_iff]

theorem least?_eq_none_iff : least? names = none ↔ names = [] := by
  rw [least?_eq_min?, List.min?_eq_none_iff]

theorem least?_congr (h : ∀ name, name ∈ names ↔ name ∈ names') :
    least? names = least? names' := by
  refine Option.ext fun name => ?_
  rw [least?_eq_some_iff, least?_eq_some_iff, h]
  simp only [h]

end CrudUi.Ascending
