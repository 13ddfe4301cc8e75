import CrudUi.CommandLine.FileTree
import CrudUi.Proofs.Computations
import Mathlib.Data.List.Induction
import Mathlib.Data.List.Nodup

/-!
# What writing leaves alone

A path that can be followed leads to the position that its segments spell out
(`FileTree.positionOf`).  Making directories changes no entry, and writing a file changes the one at
the position of its path (`FileTree.Keeps`), so whatever could be found before is found after, but
for the content of that file.

In a well-formed tree every entry lies in a directory, under a name that a path can hold.  There the
files that are listed below a directory are those with an entry, each is listed once, and each is
found under the path of the directory followed by its names.
-/

namespace CrudUi

namespace FileTree

variable {tree after last : FileTree} {position other names : List String} {entry : FileEntry}
  {path : FilePath}

/-! ### Entries -/

@[simp] theorem entry?_nil (tree : FileTree) : tree.entry? [] = some .directory := rfl

theorem entry?_of_ne_nil (h : position ≠ []) (tree : FileTree) :
    tree.entry? position = tree.entries.lookup position := by
  unfold entry?
  rw [if_neg h]

theorem lookup_cons_eq (first : List String × FileEntry) (rest : List (List String × FileEntry)) :
    (first :: rest).lookup position =
      if position = first.1 then some first.2 else rest.lookup position := by
  rw [List.lookup_cons]
  by_cases h : position = first.1
  · simp [h]
  · have hne : (position == first.1) = false := by simpa using h
    simp [h, hne]

theorem lookup_putEntry (position other : List String) (entry : FileEntry)
    (entries : List (List String × FileEntry)) :
    (putEntry position entry entries).lookup other =
      if other = position then some entry else entries.lookup other := by
  induction entries with
  | nil => rw [putEntry, lookup_cons_eq]
  | cons first rest ih =>
    rw [putEntry, lookup_cons_eq]
    split
    next hfirst =>
      rw [lookup_cons_eq, hfirst]
      split <;> rfl
    next hfirst =>
      rw [lookup_cons_eq, ih]
      by_cases hother : other = first.1
      · rw [if_pos hother, if_pos hother, if_neg (hother ▸ hfirst)]
      · rw [if_neg hother, if_neg hother]

theorem lookup_eq_some_iff {entries : List (List String × FileEntry)}
    (h : (entries.map Prod.fst).Nodup) :
    entries.lookup position = some entry ↔ (position, entry) ∈ entries := by
  induction entries with
  | nil => simp
  | cons first rest ih =>
    obtain ⟨hfirst, hrest⟩ := List.nodup_cons.mp h
    rw [lookup_cons_eq, List.mem_cons]
    split
    next hposition =>
      have hnotMem : (position, entry) ∉ rest := fun hmem =>
        hfirst (hposition ▸ List.mem_map_of_mem hmem)
      rw [or_iff_left hnotMem, Prod.ext_iff]
      simp [hposition, eq_comm]
    next hposition => simp [ih hrest, Prod.ext_iff, hposition]

theorem entry?_put (h : position ≠ []) (other : List String) (entry : FileEntry)
    (tree : FileTree) :
    FileTree.entry? (tree.put position entry) other =
      if other = position then some entry else tree.entry? other := by
  by_cases hother : other = []
  · subst hother
    simp [h.symm]
  · rw [entry?_of_ne_nil hother, entry?_of_ne_nil hother, put, lookup_putEntry]

/-! ### Following paths -/

/-- The position that a segment leads to from another. -/
def step (position : List String) (segment : String) : List String :=
  if segment = "." then position
  else if segment = ".." then position.dropLast
  else position ++ [segment]

/-- The position that a path spells out, whether or not it can be followed. -/
def positionOf (tree : FileTree) (path : FilePath) : List String :=
  path.segments.foldl step (tree.start path)

theorem follow_eq_ok_iff {segment : String} :
    tree.follow position segment = .ok other ↔
      tree.entry? position = some .directory ∧ other = step position segment ∧
        (segment = "." ∨ segment = ".." ∨ segment.utf8ByteSize ≤ maxNameLength) := by
  rw [follow, step]
  rcases hentry : tree.entry? position with - | - | -
  · simp
  · simp
  · by_cases hhere : segment = "."
    · simp [hhere, eq_comm]
    by_cases habove : segment = ".."
    · simp [habove, eq_comm]
    by_cases hlength : maxNameLength < segment.utf8ByteSize
    · simp [hhere, habove, hlength]
    · simp [hhere, habove, hlength, Nat.not_lt.mp hlength, eq_comm]

theorem eq_foldl_of_foldlM_follow {start : List String} {segments : List String}
    (h : segments.foldlM tree.follow start = .ok position) :
    position = segments.foldl step start := by
  induction segments generalizing start with
  | nil => exact (pure_eq_ok_iff.mp h).symm
  | cons segment rest ih =>
    rw [List.foldlM_cons, bind_eq_ok_iff] at h
    obtain ⟨next, hnext, hrest⟩ := h
    rw [List.foldl_cons, ← (follow_eq_ok_iff.mp hnext).2.1]
    exact ih hrest

theorem eq_positionOf_of_locate (h : tree.locate path = .ok position) :
    position = tree.positionOf path :=
  eq_foldl_of_foldlM_follow h

theorem find_eq_ok_iff :
    tree.find path = .ok entry ↔
      ∃ position, tree.locate path = .ok position ∧ tree.entry? position = some entry ∧
        (entry = .directory ∨ path.endsInSlash = false) := by
  rw [find, bind_eq_ok_iff]
  refine exists_congr fun position => and_congr_right fun _ => ?_
  rcases tree.entry? position with - | content | -
  · simp [throw, throwThe, MonadExceptOf.throw]
  · cases path.endsInSlash <;> cases entry <;>
      simp [throw, throwThe, MonadExceptOf.throw, pure, Except.pure, eq_comm]
  · cases entry <;> simp [pure, Except.pure]

theorem write_eq_ok_iff {content : String} :
    tree.write path content = .ok after ↔
      ∃ position, tree.locate path = .ok position ∧ path.endsInSlash = false ∧
        tree.entry? position ≠ some .directory ∧
        after = tree.put position (.file (some content)) := by
  rw [write, bind_eq_ok_iff]
  refine exists_congr fun position => and_congr_right fun _ => ?_
  cases path.endsInSlash <;> rcases tree.entry? position with - | - | - <;>
    simp [throw, throwThe, MonadExceptOf.throw, pure, Except.pure, bind, Except.bind, eq_comm]

/-- What is read depends on what is found. -/
theorem read_congr (h : after.find path = tree.find path) : after.read path = tree.read path := by
  rw [read, read, h]

theorem read_of_find {content : String} (h : tree.find path = .ok (.file (some content))) :
    tree.read path = .ok content := by
  rw [read, h]
  rfl

/-! ### Trees in which entries are kept -/

/-- Every entry of a tree is kept in another, but for files at some positions. -/
structure Keeps (tree after : FileTree) (changed : List String → Prop) : Prop where
  workingDirectory_eq : after.workingDirectory = tree.workingDirectory
  entry?_eq : ∀ position entry, tree.entry? position = some entry →
    entry = .directory ∨ ¬ changed position → after.entry? position = some entry

namespace Keeps

variable {changed changed' : List String → Prop}

theorem refl (tree : FileTree) (changed : List String → Prop) : tree.Keeps tree changed :=
  ⟨rfl, fun _ _ h _ => h⟩

theorem trans (h : tree.Keeps after changed) (hlast : after.Keeps last changed) :
    tree.Keeps last changed :=
  ⟨hlast.workingDirectory_eq.trans h.workingDirectory_eq, fun position entry hentry hkept =>
    hlast.entry?_eq position entry (h.entry?_eq position entry hentry hkept) hkept⟩

theorem mono (h : tree.Keeps after changed) (hmono : ∀ position, changed position →
    changed' position) : tree.Keeps after changed' :=
  ⟨h.workingDirectory_eq, fun position entry hentry hkept =>
    h.entry?_eq position entry hentry (hkept.imp_right (mt (hmono position)))⟩

theorem start_eq (h : tree.Keeps after changed) (path : FilePath) :
    after.start path = tree.start path := by
  rw [start, start, h.workingDirectory_eq]

theorem positionOf_eq (h : tree.Keeps after changed) (path : FilePath) :
    after.positionOf path = tree.positionOf path := by
  rw [positionOf, positionOf, h.start_eq]

theorem foldlM_follow (h : tree.Keeps after changed) {start segments : List String}
    (hfollow : segments.foldlM tree.follow start = .ok position) :
    segments.foldlM after.follow start = .ok position := by
  induction segments generalizing start with
  | nil => exact hfollow
  | cons segment rest ih =>
    rw [List.foldlM_cons, bind_eq_ok_iff] at hfollow ⊢
    obtain ⟨next, hnext, hrest⟩ := hfollow
    obtain ⟨hdirectory, hstep⟩ := follow_eq_ok_iff.mp hnext
    exact ⟨next, follow_eq_ok_iff.mpr ⟨h.entry?_eq _ _ hdirectory (.inl rfl), hstep⟩, ih hrest⟩

/-- A path that could be followed can be followed still. -/
theorem locate (h : tree.Keeps after changed) (hlocate : tree.locate path = .ok position) :
    after.locate path = .ok position := by
  rw [FileTree.locate, h.start_eq]
  exact h.foldlM_follow hlocate

/-- What could be found is found still. -/
theorem find (h : tree.Keeps after changed) (hfind : tree.find path = .ok entry)
    (hkept : entry = .directory ∨ ¬ changed (tree.positionOf path)) :
    after.find path = .ok entry := by
  obtain ⟨position, hlocate, hentry, hslash⟩ := find_eq_ok_iff.mp hfind
  rw [← eq_positionOf_of_locate hlocate] at hkept
  exact find_eq_ok_iff.mpr
    ⟨position, h.locate hlocate, h.entry?_eq position entry hentry hkept, hslash⟩

/-- Putting a directory where there is nothing changes no entry. -/
theorem put_directory (h : tree.entry? position = none) :
    tree.Keeps (tree.put position .directory) fun _ => False := by
  have hposition : position ≠ [] := by
    rintro rfl
    simp at h
  refine ⟨rfl, fun other entry hother _ => ?_⟩
  have hne : other ≠ position := by
    rintro rfl
    simp [h] at hother
  rw [entry?_put hposition, if_neg hne, hother]

/-- Making directories changes no entry. -/
theorem makeDirectories (tree : FileTree) (start segments : List String) :
    tree.Keeps (tree.makeDirectories start segments).2 fun _ => False := by
  induction segments generalizing tree start with
  | nil => exact .refl tree _
  | cons segment rest ih =>
    rw [FileTree.makeDirectories]
    split
    · exact .refl tree _
    · rename_i next _
      split
      next hnone => exact (put_directory hnone).trans (ih _ next)
      · exact .refl tree _
      · exact ih tree next

/-- Writing a file changes the entry at its position alone. -/
theorem write {content : String} (h : tree.write path content = .ok after) :
    tree.Keeps after (· = tree.positionOf path) ∧
      after.find path = .ok (.file (some content)) := by
  obtain ⟨position, hlocate, hslash, hfile, rfl⟩ := write_eq_ok_iff.mp h
  rw [← eq_positionOf_of_locate hlocate]
  have hposition : position ≠ [] := by
    rintro rfl
    simp at hfile
  have hkeeps : tree.Keeps (tree.put position (.file (some content))) (· = position) := by
    refine ⟨rfl, fun other entry hother hkept => ?_⟩
    have hne : other ≠ position := by
      rintro rfl
      rcases hkept with rfl | hkept
      · exact hfile hother
      · exact hkept rfl
    rw [entry?_put hposition, if_neg hne, hother]
  refine ⟨hkeeps, find_eq_ok_iff.mpr ⟨position, hkeeps.locate hlocate, ?_, .inr hslash⟩⟩
  rw [entry?_put hposition, if_pos rfl]

end Keeps

/-! ### Well-formed trees -/

/-- A name that a file or directory may have. -/
structure IsName (name : String) : Prop where
  ne_empty : name ≠ ""
  ne_here : name ≠ "."
  ne_above : name ≠ ".."
  slash_notMem : '/' ∉ name.toList
  length_le : name.utf8ByteSize ≤ maxNameLength

instance : DecidablePred IsName := fun name =>
  decidable_of_iff
    (name ≠ "" ∧ name ≠ "." ∧ name ≠ ".." ∧ '/' ∉ name.toList ∧
      name.utf8ByteSize ≤ maxNameLength)
    ⟨fun ⟨hempty, hhere, habove, hslash, hlength⟩ => ⟨hempty, hhere, habove, hslash, hlength⟩,
      fun ⟨hempty, hhere, habove, hslash, hlength⟩ => ⟨hempty, hhere, habove, hslash, hlength⟩⟩

/-- There is one entry at a position, and it lies in a directory. -/
structure WellFormed (tree : FileTree) : Prop where
  nodup_positions : (tree.entries.map Prod.fst).Nodup
  ne_nil : ∀ entry ∈ tree.entries, entry.1 ≠ []
  isName : ∀ entry ∈ tree.entries, ∀ name ∈ entry.1, IsName name
  parent : ∀ entry ∈ tree.entries, tree.entry? entry.1.dropLast = some .directory

theorem step_of_ne {name : String} (h : name ≠ "." ∧ name ≠ "..") (position : List String) :
    step position name = position ++ [name] := by
  rw [step, if_neg h.1, if_neg h.2]

theorem foldl_step_of_ne (h : ∀ name ∈ names, name ≠ "." ∧ name ≠ "..") (position : List String) :
    names.foldl step position = position ++ names := by
  induction names generalizing position with
  | nil => exact (List.append_nil position).symm
  | cons name rest ih =>
    obtain ⟨hname, hrest⟩ := List.forall_mem_cons.mp h
    rw [List.foldl_cons, step_of_ne hname, ih hrest, List.append_assoc]
    rfl

/-- Names that are joined to a path are followed from its position. -/
theorem positionOf_join (tree : FileTree) (path : FilePath)
    (h : ∀ name ∈ names, name ≠ "." ∧ name ≠ "..") :
    tree.positionOf (path.join names) = tree.positionOf path ++ names := by
  rw [positionOf, FilePath.join, List.foldl_append, foldl_step_of_ne h]
  rfl

namespace WellFormed

theorem entry?_eq_some_iff (h : tree.WellFormed) (hposition : position ≠ []) :
    tree.entry? position = some entry ↔ (position, entry) ∈ tree.entries := by
  rw [entry?_of_ne_nil hposition, lookup_eq_some_iff h.nodup_positions]

/-- Whatever lies below a position shows that there is a directory. -/
theorem entry?_eq_directory (h : tree.WellFormed) (hnames : names ≠ [])
    (hentry : tree.entry? (position ++ names) = some entry) :
    tree.entry? position = some .directory := by
  induction names using List.reverseRecOn generalizing entry with
  | nil => exact absurd rfl hnames
  | append_singleton names name ih =>
    have hmem := (h.entry?_eq_some_iff (by simp)).mp hentry
    have hparent := h.parent _ hmem
    rw [← List.append_assoc, List.dropLast_concat] at hparent
    by_cases hnil : names = []
    · rwa [hnil, List.append_nil] at hparent
    · exact ih hnil hparent

theorem isName_of_entry (h : tree.WellFormed) (hentry : tree.entry? position = some entry) :
    ∀ name ∈ position, IsName name := by
  by_cases hposition : position = []
  · simp [hposition]
  · exact h.isName _ ((h.entry?_eq_some_iff hposition).mp hentry)

theorem foldlM_follow (h : tree.WellFormed)
    (hentry : tree.entry? (position ++ names) = some entry) :
    names.foldlM tree.follow position = .ok (position ++ names) := by
  induction names generalizing position with
  | nil => rw [List.append_nil]; rfl
  | cons name rest ih =>
    have hname : IsName name := h.isName_of_entry hentry name (by simp)
    have hstep := step_of_ne ⟨hname.ne_here, hname.ne_above⟩ position
    have hfollow : tree.follow position name = .ok (position ++ [name]) :=
      follow_eq_ok_iff.mpr ⟨h.entry?_eq_directory (by simp) hentry, hstep.symm,
        .inr (.inr hname.length_le)⟩
    rw [List.append_cons] at hentry ⊢
    rw [List.foldlM_cons, bind_eq_ok_iff]
    exact ⟨_, hfollow, ih hentry⟩

/-- What lies below a directory is found under the path of the directory and its names. -/
theorem find_join (h : tree.WellFormed) (hpath : tree.find path = .ok .directory)
    (hentry : tree.entry? (tree.positionOf path ++ names) = some entry) :
    tree.find (path.join names) = .ok entry := by
  obtain ⟨position, hlocate, -⟩ := find_eq_ok_iff.mp hpath
  obtain rfl := eq_positionOf_of_locate hlocate
  refine find_eq_ok_iff.mpr ⟨_, ?_, hentry, .inr rfl⟩
  rw [locate, FilePath.join, List.foldlM_append, bind_eq_ok_iff]
  exact ⟨_, hlocate, h.foldlM_follow hentry⟩

theorem mem_filesBelow_iff (h : tree.WellFormed) :
    names ∈ tree.filesBelow position ↔
      ∃ content, tree.entry? (position ++ names) = some (.file content) := by
  have hfile {content : Option String} :
      tree.entry? (position ++ names) = some (.file content) ↔
        (position ++ names, FileEntry.file content) ∈ tree.entries := by
    by_cases hnil : position ++ names = []
    · rw [hnil, entry?_nil]
      exact iff_of_false (by simp) fun hmem => h.ne_nil _ hmem rfl
    · exact h.entry?_eq_some_iff hnil
  simp only [filesBelow, List.mem_mergeSort, List.mem_filterMap, hfile]
  constructor
  · rintro ⟨⟨other, found⟩, hmem, hnames⟩
    rcases found with content | -
    · simp only [Option.ite_none_right_eq_some, Option.some.injEq, List.isPrefixOf_iff_prefix]
        at hnames
      obtain ⟨⟨rest, rfl⟩, rfl⟩ := hnames
      rw [List.drop_left]
      exact ⟨content, hmem⟩
    · simp at hnames
  · rintro ⟨content, hmem⟩
    exact ⟨_, hmem, by simp⟩

theorem nodup_filesBelow (h : tree.WellFormed) (position : List String) :
    (tree.filesBelow position).Nodup := by
  rw [filesBelow, (List.mergeSort_perm _ _).nodup_iff, List.Nodup, List.pairwise_filterMap]
  have hpositions := List.pairwise_map.mp h.nodup_positions
  refine hpositions.imp fun {first second} hne names hnames others hothers heq => hne ?_
  rcases first with ⟨first, content | _⟩ <;> rcases second with ⟨second, content' | _⟩ <;>
    simp only [Option.ite_none_right_eq_some, Option.some.injEq, List.isPrefixOf_iff_prefix,
      reduceCtorEq] at hnames hothers
  obtain ⟨⟨rest, rfl⟩, rfl⟩ := hnames
  obtain ⟨⟨rest', rfl⟩, rfl⟩ := hothers
  rw [List.drop_left, List.drop_left] at heq
  rw [heq]

end WellFormed

end FileTree

end CrudUi
