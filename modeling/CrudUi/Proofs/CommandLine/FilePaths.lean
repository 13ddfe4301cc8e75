import CrudUi.CommandLine.FilePath
import Mathlib.Data.List.Basic
import Mathlib.Data.String.Basic

/-!
# Names and their extensions

A name that has an extension is its stem, a dot and the extension, and is cut there again
(`FileName.cut_append`, `FileName.eq_append_of_extension?`).  A path that is read from a text has no
empty segments, and none that holds a slash (`FilePath.separated_ofText`).
-/

namespace CrudUi

namespace FileName

variable {name stem extension : String}

theorem cut_append (hstem : stem ≠ "") (hextension : '.' ∉ extension.toList) :
    cut (stem ++ "." ++ extension) = (stem, some extension) := by
  have hchars : (stem ++ "." ++ extension).toList.reverse =
      extension.toList.reverse ++ '.' :: stem.toList.reverse := by
    simp
  have hnot : ∀ c ∈ extension.toList.reverse, decide (c ≠ '.') = true := by
    intro c hc
    simp only [decide_eq_true_eq]
    rintro rfl
    exact hextension (List.mem_reverse.mp hc)
  have hdrop : (stem ++ "." ++ extension).toList.reverse.dropWhile (· ≠ '.') =
      '.' :: stem.toList.reverse := by
    rw [hchars, List.dropWhile_append_of_pos hnot]
    simp
  have htake : (stem ++ "." ++ extension).toList.reverse.takeWhile (· ≠ '.') =
      extension.toList.reverse := by
    rw [hchars, List.takeWhile_append_of_pos hnot]
    simp
  obtain ⟨c, rest, hreverse⟩ : ∃ c rest, stem.toList.reverse = c :: rest :=
    List.exists_cons_of_ne_nil (by simpa using hstem)
  have hbefore : String.ofList (c :: rest).reverse = stem := by
    rw [← hreverse, List.reverse_reverse, String.ofList_toList]
  simp only [cut, hdrop, htake, hreverse, hbefore, List.reverse_reverse, String.ofList_toList]

theorem extension?_append (hstem : stem ≠ "") (hextension : '.' ∉ extension.toList) :
    extension? (stem ++ "." ++ extension) = some extension := by
  rw [extension?, cut_append hstem hextension]

theorem eq_append_of_extension? (h : extension? name = some extension) :
    name = FileName.stem name ++ "." ++ extension := by
  have hsplit := List.takeWhile_append_dropWhile (p := (· ≠ '.')) (l := name.toList.reverse)
  have hhead := List.head?_dropWhile_not (fun c => decide (c ≠ '.')) name.toList.reverse
  rw [extension?] at h
  rw [FileName.stem]
  rcases hdrop : name.toList.reverse.dropWhile (· ≠ '.') with - | ⟨c, - | ⟨d, before⟩⟩
  · simp only [cut, hdrop, reduceCtorEq] at h
  · simp only [cut, hdrop, reduceCtorEq] at h
  · have hcut : cut name = (String.ofList (d :: before).reverse,
        some (String.ofList (name.toList.reverse.takeWhile (· ≠ '.')).reverse)) := by
      simp only [cut, hdrop]
    rw [hdrop] at hsplit hhead
    obtain rfl : c = '.' := by simpa using hhead
    rw [hcut] at h
    obtain rfl := Option.some.inj h
    have hname := congrArg List.reverse hsplit
    rw [List.reverse_reverse] at hname
    rw [hcut, ← String.toList_inj]
    refine hname.symm.trans ?_
    simp

end FileName

/-! ### Segments of paths -/

namespace FilePath

/-- Every segment is a text between slashes. -/
def Separated (path : FilePath) : Prop :=
  ∀ segment ∈ path.segments, segment ≠ "" ∧ '/' ∉ segment.toList

theorem separated_ofText (text : String) : (ofText text).Separated := by
  intro segment hsegment
  obtain ⟨hmem, hne⟩ := List.mem_filter.mp hsegment
  obtain ⟨part, hpart, rfl⟩ := List.mem_map.mp hmem
  refine ⟨of_decide_eq_true hne, fun hslash => ?_⟩
  rw [String.toList_ofList] at hslash
  exact Text.notMem_of_mem_splitOn hpart hslash

theorem Separated.parent {path : FilePath} (h : path.Separated) : path.parent.Separated :=
  fun segment hsegment => h segment (List.mem_of_mem_filter (List.dropLast_subset _ hsegment))

variable {path : FilePath} {segments : List String} {name : String}

theorem components_of_concat (hsegments : path.segments = segments ++ [name]) (hname : name ≠ ".") :
    path.components = segments.filter (· ≠ ".") ++ [name] := by
  rw [components, hsegments, List.filter_append, List.filter_singleton, decide_eq_true hname]
  rfl

theorem segments_parent_of_concat (hsegments : path.segments = segments ++ [name])
    (hname : name ≠ ".") : path.parent.segments = segments.filter (· ≠ ".") := by
  rw [parent, components_of_concat hsegments hname, List.dropLast_concat]

theorem extension?_of_concat (hsegments : path.segments = segments ++ [name])
    (hname : name ≠ "." ∧ name ≠ "..") : path.extension? = FileName.extension? name := by
  have hlast : path.components.getLast? = some name := by
    rw [components_of_concat hsegments hname.1, List.getLast?_concat]
  have hfile : path.fileName? = some name := by
    rw [fileName?, hlast]
    split
    · rename_i heq
      exact absurd (Option.some.inj heq) hname.2
    · rfl
  rw [extension?, hfile]
  rfl

end FilePath

end CrudUi
