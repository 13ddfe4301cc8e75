import CrudUi.Proofs.Crud.Collections
import Mathlib.Logic.Relation

/-!
# Slashes that do not count

A path is read by its segments alone.  Each text is made of one list of segments, with slashes
between them and around them (`Path.spells_iff`), and two texts are made of the same segments
exactly if they differ only in slashes at an end and in repeated slashes
(`Path.segments_eq_iff`).  Such paths stand for the same actions, lie in the same collection and
have the same last segment that is no parameter (`Path.read_by_segments`).

## Main definitions

* `Path.Spells` : the segments that a text is made of.
* `Path.AddsSlash` : a slash is added where it does not count.
* `Path.EqUpToSlashes` : the texts differ in slashes that do not count.
-/

namespace CrudUi.Path

/-! ### The segments of a text -/

/-- The text is made of these segments, none of them empty: slashes stand between any two, and may
stand in front of the first and behind the last. -/
inductive Spells : List (List Char) → List Char → Prop
  | nothing : Spells [] []
  | slash {parts : List (List Char)} {text : List Char} (h : Spells parts text) :
      Spells parts ('/' :: text)
  | last {segment : List Char} (hne : segment ≠ []) (hslash : '/' ∉ segment) :
      Spells [segment] segment
  | segment {segment : List Char} {others : List (List Char)} {text : List Char}
      (hne : segment ≠ []) (hslash : '/' ∉ segment) (h : Spells others text) :
      Spells (segment :: others) (segment ++ '/' :: text)

variable {parts : List (List Char)} {text text' text'' : List Char} {path path' : String}

theorem Spells.segments_eq (h : Spells parts text) : segments (String.ofList text) = parts := by
  induction h with
  | nothing => rfl
  | slash _ ih => rw [segments_slash_cons, ih]
  | last hne hslash => exact segments_ofList hne hslash
  | segment hne hslash _ ih =>
    rw [segments_append_slash, segments_ofList hne hslash, ih, List.singleton_append]

/-- Every text is made of segments, which are found by cutting at its first slash. -/
theorem exists_spells (text : List Char) : ∃ parts, Spells parts text := by
  by_cases hslash : '/' ∈ text
  · obtain ⟨segment, rest, htext, hsegment⟩ := List.eq_append_cons_of_mem hslash
    have hshorter : rest.length < text.length := by
      rw [htext, List.length_append, List.length_cons]
      omega
    obtain ⟨others, hothers⟩ := exists_spells rest
    rw [htext]
    cases segment with
    | nil => exact ⟨others, hothers.slash⟩
    | cons c segment => exact ⟨_, hothers.segment (List.cons_ne_nil c segment) hsegment⟩
  · cases text with
    | nil => exact ⟨[], .nothing⟩
    | cons c rest => exact ⟨_, .last (List.cons_ne_nil c rest) hslash⟩
termination_by text.length

theorem spells_iff : Spells parts path.toList ↔ segments path = parts := by
  constructor
  · intro h
    simpa using h.segments_eq
  · rintro rfl
    obtain ⟨parts, h⟩ := exists_spells path.toList
    have hparts : segments path = parts := by simpa using h.segments_eq
    rwa [hparts]

/-! ### Texts that differ in slashes -/

/-- A slash is added at an end of a text or next to a slash. -/
inductive AddsSlash : List Char → List Char → Prop
  | front (text : List Char) : AddsSlash text ('/' :: text)
  | back (text : List Char) : AddsSlash text (text ++ ['/'])
  | beside (before after : List Char) :
      AddsSlash (before ++ '/' :: after) (before ++ '/' :: '/' :: after)

/-- The texts differ only in slashes at an end and in repeated slashes. -/
def EqUpToSlashes : List Char → List Char → Prop :=
  Relation.EqvGen AddsSlash

theorem AddsSlash.eqUpToSlashes (h : AddsSlash text text') : EqUpToSlashes text text' :=
  .rel _ _ h

theorem EqUpToSlashes.symm (h : EqUpToSlashes text text') : EqUpToSlashes text' text :=
  Relation.EqvGen.symm _ _ h

theorem EqUpToSlashes.trans (h : EqUpToSlashes text text') (h' : EqUpToSlashes text' text'') :
    EqUpToSlashes text text'' :=
  Relation.EqvGen.trans _ _ _ h h'

theorem AddsSlash.segments_eq (h : AddsSlash text text') :
    segments (String.ofList text') = segments (String.ofList text) := by
  have hnil : segments (String.ofList []) = [] := rfl
  cases h with
  | front => rw [segments_slash_cons]
  | back => rw [segments_append_slash, hnil, List.append_nil]
  | beside before after =>
    rw [segments_append_slash, segments_append_slash, segments_slash_cons]

theorem EqUpToSlashes.segments_eq (h : EqUpToSlashes text text') :
    segments (String.ofList text') = segments (String.ofList text) := by
  induction h with
  | rel text text' h => exact h.segments_eq
  | refl text => rfl
  | symm text text' _ ih => exact ih.symm
  | trans text text' text'' _ _ ih ih' => exact ih'.trans ih

/-- Behind a slash a text may have any of the slashes that it may have alone. -/
theorem EqUpToSlashes.append_slash (h : EqUpToSlashes text text') (before : List Char) :
    EqUpToSlashes (before ++ '/' :: text) (before ++ '/' :: text') := by
  induction h with
  | rel text text' h =>
    refine AddsSlash.eqUpToSlashes ?_
    cases h with
    | front => exact .beside before text
    | back => simpa using AddsSlash.back (before ++ '/' :: text)
    | beside front after => simpa using AddsSlash.beside (before ++ '/' :: front) after
  | refl text => exact .refl _
  | symm text text' _ ih => exact ih.symm
  | trans text text' text'' _ _ ih ih' => exact ih.trans ih'

/-- The segments with one slash in front of each. -/
def plainText (parts : List (List Char)) : List Char :=
  parts.flatMap ('/' :: ·)

/-- A slash behind a segment is there already, or it stands at the end. -/
theorem eqUpToSlashes_append_plainText (segment : List Char) (others : List (List Char)) :
    EqUpToSlashes (segment ++ plainText others) (segment ++ '/' :: plainText others) := by
  refine AddsSlash.eqUpToSlashes ?_
  cases others with
  | nil => simpa [plainText] using AddsSlash.back segment
  | cons next others => exact .beside segment (next ++ plainText others)

/-- A text can be brought into the form with one slash in front of each segment. -/
theorem Spells.eqUpToSlashes_plainText (h : Spells parts text) :
    EqUpToSlashes (plainText parts) text := by
  induction h with
  | nothing => exact .refl _
  | @slash parts text _ ih => exact ih.trans (AddsSlash.front text).eqUpToSlashes
  | @last segment _ _ =>
    have hplain : plainText [segment] = '/' :: segment := List.append_nil _
    rw [hplain]
    exact (AddsSlash.front segment).eqUpToSlashes.symm
  | @segment segment others text _ _ _ ih =>
    have hfront : EqUpToSlashes (plainText (segment :: others)) (segment ++ plainText others) :=
      (AddsSlash.front (segment ++ plainText others)).eqUpToSlashes.symm
    have hbehind := eqUpToSlashes_append_plainText segment others
    exact hfront.trans (hbehind.trans (ih.append_slash segment))

theorem segments_eq_iff :
    segments path = segments path' ↔ EqUpToSlashes path.toList path'.toList := by
  constructor
  · intro h
    have hpath := (spells_iff.mpr h).eqUpToSlashes_plainText
    have hpath' := (spells_iff.mpr (rfl : segments path' = _)).eqUpToSlashes_plainText
    exact hpath.symm.trans hpath'
  · intro h
    simpa using h.segments_eq.symm

/-! ### What is read from a path -/

theorem isItem_congr (h : segments path = segments path') : isItem path = isItem path' := by
  rw [isItem, isItem, h]

theorem classify_congr (method : Method) (h : segments path = segments path') :
    classify method path = classify method path' := by
  simp only [classify, isItem_congr h]

theorem resource_congr (h : segments path = segments path') : resource path = resource path' := by
  rw [resource, resource, h]

theorem lastStatic?_congr (h : segments path = segments path') :
    lastStatic? path = lastStatic? path' := by
  rw [lastStatic?, lastStatic?, h]

/-- The segments of a path are those that its text is made of, and it addresses an item if the last
of them is a parameter.  The paths with the same segments are those that differ only in slashes at
an end and in repeated slashes: a method on them stands for the same action, they lie in the same
collection, and their last segment that is no parameter is the same.  The path of a collection is
its own collection and never addresses an item, and it is the slash alone exactly if each segment is
a parameter. -/
theorem read_by_segments (path : String) :
    (∀ parts, Spells parts path.toList ↔ segments path = parts) ∧
      (isItem path = true ↔
        ∃ before name, segments path = before ++ ['\x7b' :: (name ++ ['\x7d'])]) ∧
      (∀ path' : String,
        segments path = segments path' ↔ EqUpToSlashes path.toList path'.toList) ∧
      (∀ path' : String, EqUpToSlashes path.toList path'.toList →
        (∀ method, classify method path = classify method path') ∧
          resource path = resource path' ∧ lastStatic? path = lastStatic? path') ∧
      resource (resource path) = resource path ∧
      (resource path = "/" ↔
        ∀ segment ∈ segments path, ∃ name, segment = '\x7b' :: (name ++ ['\x7d'])) ∧
      isItem (resource path) = false := by
  refine ⟨fun parts => spells_iff, isItem_iff, fun path' => segments_eq_iff, fun path' h => ?_,
    resource_resource path, ?_, isItem_resource path⟩
  · have hsegments := segments_eq_iff.mpr h
    exact ⟨fun method => classify_congr method hsegments, resource_congr hsegments,
      lastStatic?_congr hsegments⟩
  · simp only [resource_eq_slash_iff, isTemplated_iff]

/-- The path of a tenant's notes, with a slash in front, one between and one behind that do not
count. -/
theorem read_by_segments_notes :
    EqUpToSlashes "\x7btenant\x7d/notes/\x7bid\x7d".toList
        "/\x7btenant\x7d//notes/\x7bid\x7d/".toList ∧
      classify .delete "/\x7btenant\x7d//notes/\x7bid\x7d/" = some .delete ∧
      resource "/\x7btenant\x7d//notes/\x7bid\x7d/" = "/notes" ∧
      lastStatic? "/\x7btenant\x7d//notes/\x7bid\x7d/" = some "notes" := by
  have hslashes : EqUpToSlashes "\x7btenant\x7d/notes/\x7bid\x7d".toList
      "/\x7btenant\x7d//notes/\x7bid\x7d/".toList :=
    (AddsSlash.front "\x7btenant\x7d/notes/\x7bid\x7d".toList).eqUpToSlashes.trans <|
      (AddsSlash.beside "/\x7btenant\x7d".toList "notes/\x7bid\x7d".toList).eqUpToSlashes.trans
        (AddsSlash.back "/\x7btenant\x7d//notes/\x7bid\x7d".toList).eqUpToSlashes
  obtain ⟨-, -, -, halike, -⟩ := read_by_segments "\x7btenant\x7d/notes/\x7bid\x7d"
  obtain ⟨haction, hresource, hlast⟩ := halike _ hslashes
  exact ⟨hslashes, (haction .delete).symm.trans (by decide), hresource.symm.trans (by decide),
    hlast.symm.trans (by decide)⟩

end CrudUi.Path
