import CrudUi.Crud.Path
import Mathlib.Data.List.Basic

/-!
# The paths of collections

The segments of a path hold no slash, so a slash and one segment make a path of that segment alone.
The path of a collection has the first segment that is no parameter, if there is one
(`Path.segments_resource`).  It is therefore its own collection (`Path.resource_resource`) and never
addresses an item (`Path.isItem_resource`), and it is the slash alone exactly if the path has
parameters only (`Path.resource_eq_slash_iff`).
-/

namespace CrudUi.Path

/-! ### Segments -/

/-- A segment is not empty and holds no slash. -/
theorem ne_nil_and_slash_not_mem_of_mem_segments {path : String} {segment : List Char}
    (h : segment ∈ segments path) : segment ≠ [] ∧ '/' ∉ segment := by
  obtain ⟨hpart, hne⟩ := List.mem_filter.mp h
  exact ⟨by simpa using hne, Text.notMem_of_mem_splitOn hpart⟩

theorem segments_slash : segments "/" = [] := by
  decide

/-- A slash ends a segment. -/
theorem segments_append_slash (before after : List Char) :
    segments (String.ofList (before ++ '/' :: after)) =
      segments (String.ofList before) ++ segments (String.ofList after) := by
  simp only [segments, String.toList_ofList, Text.splitOn_append_separator, List.filter_append]

theorem segments_slash_cons (text : List Char) :
    segments (String.ofList ('/' :: text)) = segments (String.ofList text) :=
  segments_append_slash [] text

theorem segments_ofList {segment : List Char} (hne : segment ≠ []) (hslash : '/' ∉ segment) :
    segments (String.ofList segment) = [segment] := by
  simp [segments, Text.splitOn_of_notMem hslash, hne]

/-- A slash and a segment make a path of that segment alone. -/
theorem segments_slash_append {segment : List Char} (hne : segment ≠ []) (hslash : '/' ∉ segment) :
    segments (String.ofList ('/' :: segment)) = [segment] := by
  rw [segments_slash_cons, segments_ofList hne hslash]

/-- A parameter stands in two braces, so a lone brace is none. -/
theorem isTemplated_iff {segment : List Char} :
    isTemplated segment = true ↔ ∃ name, segment = '\x7b' :: (name ++ ['\x7d']) := by
  fun_cases isTemplated segment with
  | case1 rest =>
    rw [decide_eq_true_iff, List.getLast?_eq_some_iff]
    simp
  | case2 segment hother =>
    refine iff_of_false Bool.false_ne_true ?_
    rintro ⟨name, rfl⟩
    exact hother _ rfl

/-- A path addresses an item if its last segment is a parameter. -/
theorem isItem_iff {path : String} :
    isItem path = true ↔
      ∃ before name, segments path = before ++ ['\x7b' :: (name ++ ['\x7d'])] := by
  rw [isItem]
  cases hlast : (segments path).getLast? with
  | none => simp [List.getLast?_eq_none_iff.mp hlast]
  | some segment =>
    obtain ⟨before, hsegments⟩ := List.getLast?_eq_some_iff.mp hlast
    simp only [isTemplated_iff, hsegments]
    constructor
    · rintro ⟨name, rfl⟩
      exact ⟨before, name, rfl⟩
    · rintro ⟨before', name, h⟩
      exact ⟨name, List.singleton_inj.mp (List.append_inj' h rfl).2⟩

/-! ### Collections -/

/-- The path of a collection has the first segment that is no parameter, if there is one. -/
theorem segments_resource (path : String) :
    segments (resource path) = ((segments path).find? (!isTemplated ·)).toList := by
  rw [resource]
  cases hfind : (segments path).find? (!isTemplated ·) with
  | none => exact segments_slash
  | some segment =>
    have hmem := List.mem_of_find?_eq_some hfind
    obtain ⟨hne, hslash⟩ := ne_nil_and_slash_not_mem_of_mem_segments hmem
    exact segments_slash_append hne hslash

theorem head?_resource (path : String) : (resource path).toList.head? = some '/' := by
  rw [resource]
  cases (segments path).find? (!isTemplated ·) with
  | none => rfl
  | some segment => simp

theorem isItem_resource (path : String) : isItem (resource path) = false := by
  rw [isItem, segments_resource]
  cases hfind : (segments path).find? (!isTemplated ·) with
  | none => rfl
  | some segment => simpa using List.find?_some hfind

theorem resource_resource (path : String) : resource (resource path) = resource path := by
  rw [resource, segments_resource, resource]
  cases hfind : (segments path).find? (!isTemplated ·) with
  | none => rfl
  | some segment => rw [Option.toList_some, List.find?_singleton, if_pos (List.find?_some hfind)]

theorem resource_eq_slash_iff {path : String} :
    resource path = "/" ↔ ∀ segment ∈ segments path, isTemplated segment = true := by
  rw [resource]
  cases hfind : (segments path).find? (!isTemplated ·) with
  | none => exact iff_of_true rfl (by simpa using List.find?_eq_none.mp hfind)
  | some segment =>
    have hmem := List.mem_of_find?_eq_some hfind
    have hstatic : isTemplated segment = false := by simpa using List.find?_some hfind
    have hne := (ne_nil_and_slash_not_mem_of_mem_segments hmem).1
    refine iff_of_false (fun heq => hne ?_) fun h => Bool.false_ne_true (hstatic ▸ h segment hmem)
    simpa using congrArg String.toList heq

end CrudUi.Path
