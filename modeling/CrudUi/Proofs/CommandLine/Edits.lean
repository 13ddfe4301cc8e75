import CrudUi.Proofs.CommandLine.Commands
import CrudUi.Proofs.CommandLine.FilePaths

/-!
# What writing adds

Making directories and writing files comes down to putting entries, each into a directory that is
there and under a name that a path can hold (`FileTree.Edited`).  So a well-formed tree stays
well-formed, and no file turns up but where one was written.

Writing where there is a file already is a single step that always succeeds
(`FileTree.perform_writeOutput_of_file`).
-/

namespace CrudUi.FileTree

variable {tree between after : FileTree} {position other names : List String} {entry : FileEntry}
  {path : FilePath} {name : String} {changed changed' : List String → Prop}

/-! ### Putting an entry -/

theorem map_fst_putEntry_of_mem {entries : List (List String × FileEntry)}
    (h : position ∈ entries.map Prod.fst) (entry : FileEntry) :
    (putEntry position entry entries).map Prod.fst = entries.map Prod.fst := by
  induction entries with
  | nil => cases h
  | cons first rest ih =>
    rw [putEntry]
    split
    next hfirst => rw [List.map_cons, List.map_cons, hfirst]
    next hfirst =>
      rw [List.map_cons, List.map_cons, ih ((List.mem_cons.mp h).resolve_left (Ne.symm hfirst))]

theorem map_fst_putEntry_of_notMem {entries : List (List String × FileEntry)}
    (h : position ∉ entries.map Prod.fst) (entry : FileEntry) :
    (putEntry position entry entries).map Prod.fst = entries.map Prod.fst ++ [position] := by
  induction entries with
  | nil => rfl
  | cons first rest ih =>
    obtain ⟨hfirst, hrest⟩ := not_or.mp (mt List.mem_cons.mpr h)
    rw [putEntry, if_neg (Ne.symm hfirst), List.map_cons, ih hrest]
    rfl

theorem mem_putEntry {found : List String × FileEntry} {entries : List (List String × FileEntry)}
    (h : found ∈ putEntry position entry entries) :
    found = (position, entry) ∨ found ∈ entries := by
  induction entries with
  | nil => exact .inl (List.mem_singleton.mp h)
  | cons first rest ih =>
    rw [putEntry] at h
    split at h
    · exact (List.mem_cons.mp h).imp_right (List.mem_cons_of_mem _)
    · rcases List.mem_cons.mp h with rfl | h
      · exact .inr List.mem_cons_self
      · exact (ih h).imp_right (List.mem_cons_of_mem _)

/-- An entry may be put into a directory, unless it takes the place of another directory. -/
theorem WellFormed.put (htree : tree.WellFormed) (hparent : tree.entry? position = some .directory)
    (hname : IsName name) (hplace : tree.entry? (position ++ [name]) ≠ some .directory)
    (entry : FileEntry) : WellFormed (tree.put (position ++ [name]) entry) := by
  have hne : position ++ [name] ≠ [] := by simp
  constructor
  case nodup_positions =>
    rw [FileTree.put]
    by_cases hmem : position ++ [name] ∈ tree.entries.map Prod.fst
    · rw [map_fst_putEntry_of_mem hmem]
      exact htree.nodup_positions
    · rw [map_fst_putEntry_of_notMem hmem]
      rw [← List.concat_eq_append]
      exact htree.nodup_positions.concat hmem
  case ne_nil =>
    intro found hfound
    rcases mem_putEntry hfound with rfl | hfound
    · exact hne
    · exact htree.ne_nil found hfound
  case isName =>
    intro found hfound
    rcases mem_putEntry hfound with rfl | hfound
    · rw [List.forall_mem_append, List.forall_mem_singleton]
      exact ⟨htree.isName_of_entry hparent, hname⟩
    · exact htree.isName found hfound
  case parent =>
    have hkept {directory : List String} (h : tree.entry? directory = some .directory) :
        FileTree.entry? (tree.put (position ++ [name]) entry) directory = some .directory := by
      have hother : directory ≠ position ++ [name] := fun heq => hplace (heq ▸ h)
      rw [entry?_put hne, if_neg hother, h]
    intro found hfound
    rcases mem_putEntry hfound with rfl | hfound
    · rw [List.dropLast_concat]
      exact hkept hparent
    · exact hkept (htree.parent found hfound)

theorem eq_of_map_fst_eq {entries entries' : List (List String × FileEntry)}
    (hnodup : (entries.map Prod.fst).Nodup)
    (hpositions : entries'.map Prod.fst = entries.map Prod.fst)
    (hsub : ∀ found ∈ entries, found ∈ entries') : entries' = entries := by
  induction entries generalizing entries' with
  | nil => simpa using hpositions
  | cons first rest ih =>
    obtain ⟨first', rest', rfl, hfirst, hrest⟩ := List.map_eq_cons_iff.mp hpositions
    obtain ⟨hnotMem, hnodup⟩ := List.nodup_cons.mp hnodup
    obtain rfl : first = first' := by
      refine (List.mem_cons.mp (hsub first List.mem_cons_self)).resolve_right fun hmem => hnotMem ?_
      rw [← hrest]
      exact List.mem_map_of_mem hmem
    rw [ih hnodup hrest fun found hfound => ?_]
    refine (List.mem_cons.mp (hsub found (List.mem_cons_of_mem _ hfound))).resolve_left ?_
    rintro rfl
    exact hnotMem (List.mem_map_of_mem hfound)

/-- Trees with the same positions and entries are the same. -/
theorem WellFormed.eq_of_entry? (htree : tree.WellFormed) (hafter : after.WellFormed)
    (hpositions : after.entries.map Prod.fst = tree.entries.map Prod.fst)
    (hworking : after.workingDirectory = tree.workingDirectory)
    (hentries : ∀ position entry, tree.entry? position = some entry →
      after.entry? position = some entry) : after = tree := by
  obtain ⟨entries, workingDirectory⟩ := tree
  obtain ⟨entries', workingDirectory'⟩ := after
  obtain rfl : workingDirectory' = workingDirectory := hworking
  obtain rfl : entries' = entries :=
    eq_of_map_fst_eq htree.nodup_positions hpositions fun found hfound =>
      (hafter.entry?_eq_some_iff (htree.ne_nil found hfound)).mp
        (hentries _ _ ((htree.entry?_eq_some_iff (htree.ne_nil found hfound)).mpr hfound))
  rfl

/-! ### Edits -/

/-- A tree is reached from another by making directories, and files at some positions. -/
inductive Edited (changed : List String → Prop) (tree : FileTree) : FileTree → Prop
  | refl : Edited changed tree tree
  | directory {between : FileTree} {position : List String} {name : String}
      (h : Edited changed tree between) (hparent : between.entry? position = some .directory)
      (hname : IsName name) (hfree : between.entry? (position ++ [name]) = none) :
      Edited changed tree (between.put (position ++ [name]) .directory)
  | file {between : FileTree} {position : List String} {name : String} (content : Option String)
      (h : Edited changed tree between) (hparent : between.entry? position = some .directory)
      (hname : IsName name) (hplace : between.entry? (position ++ [name]) ≠ some .directory)
      (hchanged : changed (position ++ [name])) :
      Edited changed tree (between.put (position ++ [name]) (.file content))

namespace Edited

theorem trans (h : Edited changed tree between) (hafter : Edited changed between after) :
    Edited changed tree after := by
  induction hafter with
  | refl => exact h
  | directory _ hparent hname hfree ih => exact .directory ih hparent hname hfree
  | file content _ hparent hname hplace hchanged ih =>
    exact .file content ih hparent hname hplace hchanged

theorem mono (h : Edited changed tree after)
    (hmono : ∀ position, changed position → changed' position) : Edited changed' tree after := by
  induction h with
  | refl => exact .refl
  | directory _ hparent hname hfree ih => exact .directory ih hparent hname hfree
  | file content _ hparent hname hplace hchanged ih =>
    exact .file content ih hparent hname hplace (hmono _ hchanged)

theorem wellFormed (h : Edited changed tree after) (htree : tree.WellFormed) :
    after.WellFormed := by
  induction h with
  | refl => exact htree
  | directory _ hparent hname hfree ih => exact ih.put hparent hname (by simp [hfree]) _
  | file content _ hparent hname hplace _ ih => exact ih.put hparent hname hplace _

theorem workingDirectory_eq (h : Edited changed tree after) :
    after.workingDirectory = tree.workingDirectory := by
  induction h with
  | refl => rfl
  | directory _ _ _ _ ih => exact ih
  | file _ _ _ _ _ _ ih => exact ih

theorem positionOf_eq (h : Edited changed tree after) (path : FilePath) :
    after.positionOf path = tree.positionOf path := by
  rw [positionOf, positionOf, start, start, h.workingDirectory_eq]

theorem keeps (h : Edited changed tree after) : tree.Keeps after changed := by
  induction h with
  | refl => exact .refl tree _
  | directory _ _ _ hfree ih =>
    exact ih.trans ((Keeps.put_directory hfree).mono fun _ => False.elim)
  | @file between position name content _ _ _ hplace hchanged ih =>
    refine ih.trans ⟨rfl, fun other entry hentry hkept => ?_⟩
    have hother : other ≠ position ++ [name] := by
      rintro rfl
      rcases hkept with rfl | hkept
      · exact hplace hentry
      · exact hkept hchanged
    rw [entry?_put (by simp), if_neg hother, hentry]

/-- A file stays a file. -/
theorem exists_file (h : Edited changed tree after) {content : Option String}
    (hentry : tree.entry? other = some (.file content)) :
    ∃ content', after.entry? other = some (.file content') := by
  induction h with
  | refl => exact ⟨content, hentry⟩
  | directory _ _ _ hfree ih =>
    obtain ⟨content', hcontent'⟩ := ih
    rw [entry?_put (by simp)]
    split
    next heq => simp [← heq, hcontent'] at hfree
    next => exact ⟨content', hcontent'⟩
  | file written _ _ _ _ _ ih =>
    rw [entry?_put (by simp)]
    split
    next => exact ⟨written, rfl⟩
    next => exact ih

/-- A file was there before, or it was written. -/
theorem entry?_of_file (h : Edited changed tree after) {content : Option String}
    (hentry : after.entry? other = some (.file content)) :
    changed other ∨ tree.entry? other = some (.file content) := by
  induction h with
  | refl => exact .inr hentry
  | directory _ _ _ _ ih =>
    rw [entry?_put (by simp)] at hentry
    split at hentry
    · simp at hentry
    · exact ih hentry
  | file _ _ _ _ _ hchanged ih =>
    rw [entry?_put (by simp)] at hentry
    split at hentry
    · rename_i hother
      exact .inl (hother ▸ hchanged)
    · exact ih hentry

end Edited

/-! ### Operations as edits -/

theorem WellFormed.entry?_dropLast (htree : tree.WellFormed)
    (h : tree.entry? position = some entry) : tree.entry? position.dropLast = some .directory := by
  by_cases hposition : position = []
  · rw [hposition]
    rfl
  · exact htree.parent _ ((htree.entry?_eq_some_iff hposition).mp h)

/-- A segment that does not lead to a directory is the name of something in one. -/
theorem WellFormed.isName_of_follow (htree : tree.WellFormed) {segment : String}
    (hsegment : segment ≠ "" ∧ '/' ∉ segment.toList) (h : tree.follow position segment = .ok other)
    (hother : tree.entry? other ≠ some .directory) :
    tree.entry? position = some .directory ∧ IsName segment ∧ other = position ++ [segment] := by
  obtain ⟨hposition, rfl, hlength⟩ := follow_eq_ok_iff.mp h
  have hhere : segment ≠ "." := by
    rintro rfl
    exact hother hposition
  have habove : segment ≠ ".." := by
    rintro rfl
    exact hother (htree.entry?_dropLast hposition)
  exact ⟨hposition, ⟨hsegment.1, hhere, habove, hsegment.2, by simpa [hhere, habove] using hlength⟩,
    step_of_ne ⟨hhere, habove⟩ position⟩

theorem edited_makeDirectories (htree : tree.WellFormed) {segments : List String}
    (hsegments : ∀ segment ∈ segments, segment ≠ "" ∧ '/' ∉ segment.toList) (start : List String) :
    Edited (fun _ => False) tree (tree.makeDirectories start segments).2 := by
  induction segments generalizing tree start with
  | nil => exact .refl
  | cons segment rest ih =>
    obtain ⟨hsegment, hrest⟩ := List.forall_mem_cons.mp hsegments
    rw [makeDirectories]
    split
    · exact .refl
    · rename_i next hnext
      split
      next hfree =>
        obtain ⟨hparent, hname, rfl⟩ := htree.isName_of_follow hsegment hnext (by simp [hfree])
        have hmade : Edited (fun _ => False) tree (tree.put (start ++ [segment]) .directory) :=
          .directory .refl hparent hname hfree
        exact hmade.trans (ih (hmade.wellFormed htree) hrest _)
      · exact .refl
      · exact ih htree hrest next

/-- The last segment of a path is followed from where the segments before it lead. -/
theorem exists_follow_of_locate {segments : List String} {name : String}
    (hsegments : path.segments = segments ++ [name]) (h : tree.locate path = .ok position) :
    ∃ directory, segments.foldlM tree.follow (tree.start path) = .ok directory ∧
      tree.follow directory name = .ok position := by
  rw [locate, hsegments, List.foldlM_append, bind_eq_ok_iff] at h
  obtain ⟨directory, hdirectory, hlast⟩ := h
  exact ⟨directory, hdirectory, by simpa using hlast⟩

theorem edited_write (htree : tree.WellFormed) {segments : List String} {name : String}
    (hsegments : path.segments = segments ++ [name]) (hname : name ≠ "" ∧ '/' ∉ name.toList)
    {content : String} (h : tree.write path content = .ok after) :
    Edited (· = tree.positionOf path) tree after := by
  obtain ⟨position, hlocate, -, hplace, rfl⟩ := write_eq_ok_iff.mp h
  obtain ⟨directory, -, hfollow⟩ := exists_follow_of_locate hsegments hlocate
  obtain ⟨hparent, hisName, rfl⟩ := htree.isName_of_follow hname hfollow hplace
  exact .file _ .refl hparent hisName hplace (eq_positionOf_of_locate hlocate)

/-- Writing an output makes directories, and a file at its position. -/
theorem edited_writeOutput (htree : tree.WellFormed) (hpath : path.Separated)
    {segments : List String} {name : String} (hsegments : path.segments = segments ++ [name])
    (content : String) :
    Edited (· = tree.positionOf path) tree (tree.perform (path.writeOutput content)).2 := by
  have hname : name ≠ "" ∧ '/' ∉ name.toList := hpath name (by simp [hsegments])
  have hwrite (made : FileTree) (hmade : Edited (fun _ => False) tree made) :
      Edited (· = tree.positionOf path) tree
        (made.perform (Failure.lift (FileSystem.write path content))).2 := by
    have hkept : Edited (· = tree.positionOf path) tree made := hmade.mono fun _ => False.elim
    rw [perform_lift, run_write]
    cases hresult : made.write path content with
    | error error => exact hkept
    | ok after =>
      refine hkept.trans ?_
      rw [← hmade.positionOf_eq]
      exact edited_write (hmade.wellFormed htree) hsegments hname hresult
  rw [FilePath.writeOutput]
  simp only [perform_bind, perform_liftM, run_kind?]
  split
  · rw [perform_bind, perform_lift, run_createDirectories]
    have hmade := edited_makeDirectories htree hpath.parent (tree.start path.parent)
    generalize tree.makeDirectories (tree.start path.parent) path.parent.segments = made at hmade
    obtain ⟨result, made⟩ := made
    cases result with
    | error error => exact hmade.mono fun _ => False.elim
    | ok => exact hwrite made hmade
  · exact hwrite tree .refl

/-! ### Writing over a file -/

theorem foldlM_follow_filter {segments : List String}
    (h : segments.foldlM tree.follow position = .ok other) :
    (segments.filter (· ≠ ".")).foldlM tree.follow position = .ok other := by
  induction segments generalizing position with
  | nil => exact h
  | cons segment rest ih =>
    rw [List.foldlM_cons, bind_eq_ok_iff] at h
    obtain ⟨next, hnext, hrest⟩ := h
    by_cases hhere : segment = "."
    · subst hhere
      obtain rfl : next = position := (follow_eq_ok_iff.mp hnext).2.1
      exact ih hrest
    · rw [List.filter_cons_of_pos (by simpa using hhere), List.foldlM_cons, bind_eq_ok_iff]
      exact ⟨next, hnext, ih hrest⟩

/-- The directory of a file that is found is found as well. -/
theorem find_parent {segments : List String} {name : String}
    (hsegments : path.segments = segments ++ [name]) (hname : name ≠ ".")
    (h : tree.locate path = .ok position) : tree.find path.parent = .ok .directory := by
  obtain ⟨directory, hdirectory, hfollow⟩ := exists_follow_of_locate hsegments h
  refine find_eq_ok_iff.mpr ⟨directory, ?_, (follow_eq_ok_iff.mp hfollow).1, .inl rfl⟩
  rw [locate, FilePath.segments_parent_of_concat hsegments hname]
  exact foldlM_follow_filter hdirectory

/-- Where there is a file, an output takes its place at once. -/
theorem perform_writeOutput_of_file {segments : List String} {name : String}
    (hsegments : path.segments = segments ++ [name]) (hname : name ≠ ".")
    (hslash : path.endsInSlash = false) {old : Option String}
    (hfind : tree.find path = .ok (.file old)) (content : String) :
    tree.perform (path.writeOutput content) =
      (.ok (), tree.put (tree.positionOf path) (.file (some content))) := by
  obtain ⟨position, hlocate, hentry, -⟩ := find_eq_ok_iff.mp hfind
  have hwrite : tree.write path content =
      .ok (tree.put (tree.positionOf path) (.file (some content))) :=
    write_eq_ok_iff.mpr ⟨position, hlocate, hslash, by simp [hentry],
      by rw [eq_positionOf_of_locate hlocate]⟩
  have hkind : (tree.find path.parent).toOption.map FileEntry.kind = some .directory := by
    rw [find_parent hsegments hname hlocate]
    rfl
  rw [FilePath.writeOutput]
  simp only [perform_bind, perform_liftM, run_kind?, hkind]
  rw [if_neg (by simp), perform_lift, run_write, hwrite]
  rfl

end CrudUi.FileTree
