import CrudUi.Proofs.Inference.Projections

/-!
# The order of columns and forms

Where no two fields have one name, the list shows the key, if it fits a cell, and then the other
fields that do, five in all.  A form is determined by what it offers and in which order: the fields
that a client may set, the required ones first, and within the required and within the others the
order of the fields (`formFields_eq_iff`).  The primary key does not depend on the order of the
fields (`inferPrimaryKey_eq_of_perm`).

## Main definitions

* `IsForm` : what a form offers, and in which order.
-/

namespace CrudUi

variable {fields fields' : List Field} {key : Option String}

/-! ### Groups of names -/

/-- The names of the fields that fit a cell. -/
def scalarNames (fields : List Field) : List String :=
  (fields.filter (!·.type.isComposite)).map Field.name

/-- The names of the fields that must have a value. -/
def requiredNames (fields : List Field) : List String :=
  (fields.filter (·.required)).map Field.name

theorem name_mem_requiredNames_iff (h : (fields.map Field.name).Nodup) {field : Field}
    (hfield : field ∈ fields) : field.name ∈ requiredNames fields ↔ field.required = true :=
  name_mem_names_filter_iff h hfield

/-! ### Columns -/

/-- The columns are the first of these: the key, if it fits a cell, and the other fields that do. -/
theorem listColumns_eq (h : (fields.map Field.name).Nodup) (key : Option String) :
    listColumns fields key =
      (key.toList.filter (· ∈ scalarNames fields) ++
        (scalarNames fields).filter fun name => key ≠ some name).take maxColumns := by
  cases key with
  | none => simp [listColumns, scalarNames]
  | some key =>
    have hscalar : (scalarNames fields).Nodup := h.sublist (List.filter_sublist.map Field.name)
    have hrest : (scalarNames fields).erase key =
        (scalarNames fields).filter fun name => some key ≠ some name := by
      rw [hscalar.erase_eq_filter]
      exact List.filter_congr fun name _ => by simp [bne, Bool.beq_eq_decide_eq, eq_comm]
    rw [listColumns, ← scalarNames, ← hrest]
    by_cases hkey : key ∈ scalarNames fields
    · simp [hkey]
    · simp [hkey, List.erase_of_not_mem hkey]

/-! ### Forms -/

/-- A form offers each field that a client may set once, required fields before others, and both
groups in the order of the fields. -/
structure IsForm (fields : List Field) (key : Option String) (form : List String) : Prop where
  nodup : form.Nodup
  mem_iff : ∀ name, name ∈ form ↔ ∃ field ∈ fields, field.name = name ∧
    field.isReadOnly = false ∧ (key = some name → field.required = true)
  required_first : form.Pairwise fun earlier later =>
    later ∈ requiredNames fields → earlier ∈ requiredNames fields
  required_in_order : (form.filter (· ∈ requiredNames fields)).Sublist (fields.map Field.name)
  others_in_order : (form.filter (· ∉ requiredNames fields)).Sublist (fields.map Field.name)

section Partition

variable {α : Type} {chosen : α → Prop} [DecidablePred chosen]

/-- A list that has what is chosen in front is that, followed by what is not. -/
theorem eq_filter_append_filter_not {list : List α}
    (h : list.Pairwise fun earlier later => chosen later → chosen earlier) :
    list = list.filter chosen ++ list.filter (¬ chosen ·) := by
  induction list with
  | nil => rfl
  | cons first rest ih =>
    obtain ⟨hfirst, hrest⟩ := List.pairwise_cons.mp h
    by_cases hchosen : chosen first
    · simpa [hchosen] using ih hrest
    · have hnone : rest.filter chosen = [] := List.filter_eq_nil_iff.mpr fun later hlater => by
        simpa using mt (hfirst later hlater) hchosen
      rw [hnone, List.nil_append] at ih
      simpa [hchosen, hnone] using ih hrest

theorem filter_append_of_forall {front back : List α} (hfront : ∀ member ∈ front, chosen member)
    (hback : ∀ member ∈ back, ¬ chosen member) :
    (front ++ back).filter chosen = front ∧ (front ++ back).filter (¬ chosen ·) = back := by
  constructor
  · rw [List.filter_append, List.filter_eq_self.mpr (by simpa using hfront),
      List.filter_eq_nil_iff.mpr (by simpa using hback), List.append_nil]
  · rw [List.filter_append, List.filter_eq_nil_iff.mpr (by simpa using hfront),
      List.filter_eq_self.mpr (by simpa using hback), List.nil_append]

end Partition

/-- What a form offers, and the order, determine it. -/
theorem IsForm.eq (h : (fields.map Field.name).Nodup) {form form' : List String}
    (hform : IsForm fields key form) (hform' : IsForm fields key form') : form = form' := by
  have hperm : form.Perm form' := (List.perm_ext_iff_of_nodup hform.nodup hform'.nodup).mpr
    fun name => by rw [hform.mem_iff, hform'.mem_iff]
  have hrequired := (h.perm_iff_eq_of_sublist hform.required_in_order
    hform'.required_in_order).mp (hperm.filter (· ∈ requiredNames fields))
  have hothers := (h.perm_iff_eq_of_sublist hform.others_in_order
    hform'.others_in_order).mp (hperm.filter (· ∉ requiredNames fields))
  rw [eq_filter_append_filter_not hform.required_first,
    eq_filter_append_filter_not hform'.required_first, hrequired, hothers]

theorem isEditable_iff {field : Field} :
    isEditable key field = true ↔
      field.isReadOnly = false ∧ (key = some field.name → field.required = true) := by
  simp [isEditable, ← imp_iff_not_or]

theorem mem_formFields_iff {name : String} :
    name ∈ formFields fields key ↔ ∃ field ∈ fields, field.name = name ∧
      field.isReadOnly = false ∧ (key = some name → field.required = true) := by
  rw [(formFields_perm fields key).mem_iff, List.mem_map]
  simp only [List.mem_filter, isEditable_iff]
  constructor
  · rintro ⟨field, ⟨hmem, hoffered⟩, rfl⟩
    exact ⟨field, hmem, rfl, hoffered⟩
  · rintro ⟨field, hmem, rfl, hoffered⟩
    exact ⟨field, ⟨hmem, hoffered⟩, rfl⟩

theorem isForm_formFields (h : (fields.map Field.name).Nodup) (key : Option String) :
    IsForm fields key (formFields fields key) := by
  let required := (fields.filter fun field => field.required && isEditable key field).map Field.name
  let others := (fields.filter fun field => !field.required && isEditable key field).map Field.name
  have hform : formFields fields key = required ++ others := List.map_append
  have hrequired : ∀ name ∈ required, name ∈ requiredNames fields := by
    intro name hname
    obtain ⟨field, hfield, rfl⟩ := List.mem_map.mp hname
    obtain ⟨hmem, hchosen⟩ := List.mem_filter.mp hfield
    exact (name_mem_requiredNames_iff h hmem).mpr (Bool.and_eq_true_iff.mp hchosen).1
  have hothers : ∀ name ∈ others, name ∉ requiredNames fields := by
    intro name hname
    obtain ⟨field, hfield, rfl⟩ := List.mem_map.mp hname
    obtain ⟨hmem, hchosen⟩ := List.mem_filter.mp hfield
    rw [name_mem_requiredNames_iff h hmem]
    simpa using (Bool.and_eq_true_iff.mp hchosen).1
  obtain ⟨hfront, hback⟩ := filter_append_of_forall hrequired hothers
  constructor
  case nodup => exact nodup_formFields h
  case mem_iff => exact fun name => mem_formFields_iff
  case required_first =>
    rw [hform, List.pairwise_append]
    exact ⟨List.pairwise_of_forall_mem_list fun name hname _ _ _ => hrequired name hname,
      List.pairwise_of_forall_mem_list fun _ _ name hname h => absurd h (hothers name hname),
      fun name hname _ _ _ => hrequired name hname⟩
  case required_in_order =>
    rw [hform, hfront]
    exact List.filter_sublist.map Field.name
  case others_in_order =>
    rw [hform, hback]
    exact List.filter_sublist.map Field.name

theorem formFields_eq_iff (h : (fields.map Field.name).Nodup) {form : List String} :
    formFields fields key = form ↔ IsForm fields key form :=
  ⟨fun heq => heq ▸ isForm_formFields h key, fun hform => (isForm_formFields h key).eq h hform⟩

/-! ### The primary key -/

theorem inferPrimaryKey_eq_of_perm (h : fields.Perm fields') :
    inferPrimaryKey fields = inferPrimaryKey fields' := by
  have hmem : ∀ name, name ∈ fields.map Field.name ↔ name ∈ fields'.map Field.name := fun name =>
    (h.map Field.name).mem_iff
  have hleast : Ascending.least? ((fields.map Field.name).filter endsWithId) =
      Ascending.least? ((fields'.map Field.name).filter endsWithId) :=
    Ascending.least?_congr fun name => by rw [List.mem_filter, List.mem_filter, hmem]
  simp only [inferPrimaryKey, hmem, hleast]

theorem endsWithId_iff {name : String} :
    endsWithId name = true ↔ ['i', 'd'] <:+ Text.lowercase name.toList :=
  List.isSuffixOf_iff_suffix

/-- There is no key exactly if no name ends in `id`, since `id` and `_id` do so themselves. -/
theorem inferPrimaryKey_eq_none_iff :
    inferPrimaryKey fields = none ↔ ∀ name ∈ fields.map Field.name, ¬ endsWithId name = true := by
  simp only [inferPrimaryKey]
  by_cases hid : "id" ∈ fields.map Field.name
  · rw [if_pos hid]
    exact iff_of_false (Option.some_ne_none _) fun h => h _ hid (by decide)
  by_cases hunderscore : "_id" ∈ fields.map Field.name
  · rw [if_neg hid, if_pos hunderscore]
    exact iff_of_false (Option.some_ne_none _) fun h => h _ hunderscore (by decide)
  · rw [if_neg hid, if_neg hunderscore, Ascending.least?_eq_none_iff, List.filter_eq_nil_iff]

/-! ### Both views and the key -/

/-- Of fields with distinct names, the list shows the first five of the key, if it fits a cell, and
the others that do; the form is the one that offers what a client may set, required fields first.
The key is inferred whatever the order of the fields, it is one of them, and there is none exactly
if no name ends in `id` in lower case. -/
theorem views_of_distinct_names (h : (fields.map Field.name).Nodup) (key : Option String) :
    (buildViews fields key).columns =
        (key.toList.filter (· ∈ scalarNames fields) ++
          (scalarNames fields).filter fun name => key ≠ some name).take 5 ∧
      (∀ form, (buildViews fields key).form = form ↔ IsForm fields key form) ∧
      (∀ fields', fields.Perm fields' → inferPrimaryKey fields' = inferPrimaryKey fields) ∧
      (∀ name, inferPrimaryKey fields = some name → name ∈ fields.map Field.name) ∧
      (inferPrimaryKey fields = none ↔
        ∀ name ∈ fields.map Field.name, ¬ ['i', 'd'] <:+ Text.lowercase name.toList) := by
  refine ⟨listColumns_eq h key, fun form => formFields_eq_iff h, fun fields' hperm => ?_,
    fun name => mem_names_of_inferPrimaryKey, ?_⟩
  · exact (inferPrimaryKey_eq_of_perm hperm).symm
  · simp only [inferPrimaryKey_eq_none_iff, endsWithId_iff]

/-- The fields of a member: the key is the sixth that fits a cell. -/
def memberFields : List Field :=
  [{ name := "active", label := "Active", type := .boolean, required := false },
    { name := "address", label := "Address", type := .object, required := true },
    { name := "city", label := "City", type := .string, required := false },
    { name := "email", label := "Email", type := .string, required := true },
    { name := "joined", label := "Joined", type := .string, required := true, readOnly := true },
    { name := "level", label := "Level", type := .integer, required := false },
    { name := "memberID", label := "Member Id", type := .string, required := false },
    { name := "name", label := "Name", type := .string, required := true }]

theorem views_of_member_fields :
    (memberFields.map Field.name).Nodup ∧
      (buildViews memberFields "memberID").columns =
        ["memberID", "active", "city", "email", "joined"] ∧
      IsForm memberFields "memberID" ["address", "email", "name", "active", "city", "level"] ∧
      inferPrimaryKey memberFields.reverse = some "memberID" := by
  have hnodup : (memberFields.map Field.name).Nodup := by decide
  obtain ⟨hcolumns, hform, hperm, -⟩ := views_of_distinct_names hnodup "memberID"
  refine ⟨hnodup, hcolumns.trans (by decide), (hform _).mp (by decide), ?_⟩
  rw [hperm _ memberFields.reverse_perm.symm]
  decide

end CrudUi
