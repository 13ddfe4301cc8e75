import CrudUi.Proofs.Resolution.Origins

/-!
# Where the items of a resolved schema come from

A resolution makes new schemas out of old ones, but it takes their items as they are: those of a
resolved schema stand somewhere in the document, below the schema itself or below a component, with
nothing but items and branches of `allOf` on the way (`Components.items_resolve_mem_parts`).  There
are no more such schemas than the document has schemas (`Components.length_parts_le`).
-/

namespace CrudUi

namespace Schema

mutual

/-- A schema, its items and the branches of its `allOf`, and what stands below these in the same
way. -/
def skeleton : Schema → List Schema
  | schema@⟨_, _, _, _, _, _, items, allOf, _, _, _, _⟩ =>
    schema :: (skeletonOfOption items ++ skeletonOfList allOf)

/-- The skeleton of an optional schema. -/
def skeletonOfOption : Option Schema → List Schema
  | none => []
  | some schema => schema.skeleton

/-- The skeletons of the schemas of a list. -/
def skeletonOfList : List Schema → List Schema
  | [] => []
  | schema :: rest => schema.skeleton ++ skeletonOfList rest

end

theorem skeletonOfList_eq (schemas : List Schema) :
    skeletonOfList schemas = schemas.flatMap skeleton := by
  induction schemas with
  | nil => rfl
  | cons schema rest ih => rw [skeletonOfList, ih, List.flatMap_cons]

theorem skeletonOfOption_eq (schema : Option Schema) :
    skeletonOfOption schema = schema.toList.flatMap skeleton := by
  cases schema <;> simp [skeletonOfOption]

theorem mem_skeleton_iff {schema part : Schema} :
    part ∈ schema.skeleton ↔ part = schema ∨
      (∃ items, schema.items = some items ∧ part ∈ items.skeleton) ∨
      ∃ branch ∈ schema.allOf, part ∈ branch.skeleton := by
  cases schema
  simp [skeleton, skeletonOfList_eq, skeletonOfOption_eq]

theorem self_mem_skeleton (schema : Schema) : schema ∈ schema.skeleton :=
  mem_skeleton_iff.mpr (.inl rfl)

theorem size_items_lt {schema items : Schema} (h : schema.items = some items) :
    items.size < schema.size := by
  cases schema
  subst h
  simp only [size, sizeOfOption]
  omega

/-- What stands below a part of a schema stands below the schema. -/
theorem skeleton_subset {schema part : Schema} (h : part ∈ schema.skeleton) :
    part.skeleton ⊆ schema.skeleton := by
  rcases mem_skeleton_iff.mp h with rfl | ⟨items, hitems, h⟩ | ⟨branch, hbranch, h⟩
  · exact List.Subset.refl _
  · have := size_items_lt hitems
    exact fun _ hmem =>
      mem_skeleton_iff.mpr (.inr (.inl ⟨items, hitems, skeleton_subset h hmem⟩))
  · have := size_lt_of_mem_allOf hbranch
    exact fun _ hmem =>
      mem_skeleton_iff.mpr (.inr (.inr ⟨branch, hbranch, skeleton_subset h hmem⟩))
termination_by schema.size

theorem items_mem_skeleton {schema items : Schema} (h : schema.items = some items) :
    items ∈ schema.skeleton :=
  mem_skeleton_iff.mpr (.inr (.inl ⟨items, h, items.self_mem_skeleton⟩))

theorem branch_mem_skeleton {schema branch : Schema} (h : branch ∈ schema.allOf) :
    branch ∈ schema.skeleton :=
  mem_skeleton_iff.mpr (.inr (.inr ⟨branch, h, branch.self_mem_skeleton⟩))

mutual

theorem length_skeleton_le : (schema : Schema) → schema.skeleton.length ≤ schema.size
  | ⟨_, _, _, _, _, _, items, allOf, _, _, _, _⟩ => by
    have hitems := length_skeletonOfOption_le items
    have hallOf := length_skeletonOfList_le allOf
    simp only [skeleton, size, List.length_cons, List.length_append]
    omega

theorem length_skeletonOfOption_le :
    (schema : Option Schema) → (skeletonOfOption schema).length ≤ sizeOfOption schema
  | none => by simp [skeletonOfOption]
  | some schema => length_skeleton_le schema

theorem length_skeletonOfList_le :
    (schemas : List Schema) → (skeletonOfList schemas).length ≤ sizeOfList schemas
  | [] => by simp [skeletonOfList]
  | schema :: rest => by
    have hfirst := length_skeleton_le schema
    have hrest := length_skeletonOfList_le rest
    simp only [skeletonOfList, sizeOfList, List.length_append]
    omega

end

end Schema

namespace Components

variable {components : Components}

/-- The schemas of a document that items can be found among: the skeletons of the components, and
that of a schema. -/
def parts (components : Components) (schema : Schema) : List Schema :=
  components.schemas.flatMap (·.2.skeleton) ++ schema.skeleton

theorem mem_parts_of_lookup {name : String} {definition : Schema} (schema : Schema)
    (h : components.schemas.lookup name = some definition) :
    definition ∈ components.parts schema :=
  List.mem_append_left _ (List.mem_flatMap.mpr
    ⟨(name, definition), Entries.mem_of_lookup h, definition.self_mem_skeleton⟩)

theorem self_mem_parts (components : Components) (schema : Schema) :
    schema ∈ components.parts schema :=
  List.mem_append_right _ schema.self_mem_skeleton

theorem skeleton_subset_parts {schema part : Schema} (h : part ∈ components.parts schema) :
    part.skeleton ⊆ components.parts schema := by
  intro other hother
  rcases List.mem_append.mp h with h | h
  · obtain ⟨entry, hentry, h⟩ := List.mem_flatMap.mp h
    exact List.mem_append_left _
      (List.mem_flatMap.mpr ⟨entry, hentry, Schema.skeleton_subset h hother⟩)
  · exact List.mem_append_right _ (Schema.skeleton_subset h hother)

theorem length_parts_le (components : Components) (schema : Schema) :
    (components.parts schema).length ≤
      Schema.sizeOfProperties components.schemas + schema.size := by
  have hentries : ∀ entries : Entries Schema,
      (entries.flatMap (·.2.skeleton)).length ≤ Schema.sizeOfProperties entries := by
    intro entries
    induction entries with
    | nil => simp
    | cons entry rest ih =>
      have := entry.2.length_skeleton_le
      rw [List.flatMap_cons, List.length_append, Schema.sizeOfProperties]
      omega
  have := hentries components.schemas
  have := schema.length_skeleton_le
  rw [parts, List.length_append]
  omega

/-- A resolution of a part goes on with parts. -/
theorem GoesOn.mem_parts {schema : Schema} {inner outer : Schema × RefChain}
    (h : components.GoesOn inner outer) (houter : outer.1 ∈ components.parts schema) :
    inner.1 ∈ components.parts schema := by
  cases h with
  | follow href hfollow => exact mem_parts_of_lookup schema (follow?_eq_some hfollow).2.2
  | branch href hbranch => exact skeleton_subset_parts houter (Schema.branch_mem_skeleton hbranch)

/-- The items of a resolved part are parts. -/
theorem items_resolve_mem_parts {schema part : Schema} {chain : RefChain}
    (hpart : part ∈ components.parts schema) {items : Schema}
    (h : (components.resolve part chain).schema.items = some items) :
    items ∈ components.parts schema := by
  obtain ⟨origin, hreach, hitems⟩ := exists_goesOn_of_resolve (Schema.inherited_items items) h
  have horigin : origin.1 ∈ components.parts schema :=
    keeps_of_reflTransGen (·.1 ∈ components.parts schema) (fun _ _ => GoesOn.mem_parts) hreach hpart
  exact skeleton_subset_parts horigin (Schema.items_mem_skeleton hitems)

end Components

end CrudUi
