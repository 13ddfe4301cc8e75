import CrudUi.Proofs.Store.Runs
import Mathlib.Data.List.Nodup

/-!
# Which sample rows are valid

A sample row and its validation are two readings of the same fields, and they do not agree on all of
them: a sample has `null` for lists, objects and unknown values, leaves out what is never shown, and
holds a number of its own under the primary key, while validation takes `null` for absent.  A sample
row is valid exactly if each field fits (`Entity.validate_sample_eq_ok_iff`).

## Main definitions

* `Field.HasSample` : there is a sample value for a field.
* `Field.Shows` : it stands in the sample row.
* `Entity.SampleFits` : a sample row has nothing wrong with a field.
-/

namespace CrudUi

/-! ### Sample values -/

namespace Field

variable {field : Field} {seed : Nat}

/-- The format of a field asks for no date, or for one that sample dates reach back to. -/
def DateInReach (field : Field) (seed : Nat) : Prop :=
  field.format = some "date" ∨ field.format = some "date-time" → (sampleDate? seed).isSome

/-- There is a sample value for a field: none for lists, objects and unknown values, nor for dates
out of reach. -/
def HasSample (field : Field) (seed : Nat) : Prop :=
  match field.type with
  | .boolean | .integer | .number => True
  | .string => field.enumValues.getD [] ≠ [] ∨ field.DateInReach seed
  | .array | .object | .unknown => False

/-- A sample row has a sample of a field. -/
def Shows (field : Field) (seed : Nat) : Prop :=
  field.isWriteOnly = false ∧ field.HasSample seed

theorem sampleText_eq (field : Field) (seed : Nat) :
    field.DateInReach seed ∧ (∃ text, field.sampleText seed = .string text) ∨
      ¬ field.DateInReach seed ∧ field.sampleText seed = .null := by
  unfold sampleText DateInReach
  split
  · rename_i hformat
    cases sampleDate? seed with
    | none => exact .inr ⟨by simp [hformat], rfl⟩
    | some date => exact .inl ⟨by simp, _, rfl⟩
  · rename_i hformat
    cases sampleDate? seed with
    | none => exact .inr ⟨by simp [hformat], rfl⟩
    | some date => exact .inl ⟨by simp, _, rfl⟩
  · rename_i hformat
    exact .inl ⟨by simp [hformat], _, rfl⟩
  · rename_i hdatetime hdate _
    exact .inl ⟨fun h => (h.elim hdate hdatetime).elim, _, rfl⟩

/-- A field of allowed texts takes its samples from them. -/
theorem sample_of_allowed {allowed : List String} (htype : field.type = .string)
    (hallowed : field.enumValues = some allowed) (hne : allowed ≠ []) (seed : Nat) :
    ∃ text ∈ allowed, field.sample seed = .string text := by
  have hlt : seed % allowed.length < allowed.length :=
    Nat.mod_lt _ (List.length_pos_iff.mpr hne)
  refine ⟨allowed[seed % allowed.length], List.getElem_mem hlt, ?_⟩
  simp [sample, htype, hallowed, List.getElem?_eq_getElem hlt]

theorem sample_of_getD_eq_nil (htype : field.type = .string)
    (hallowed : field.enumValues.getD [] = []) (seed : Nat) :
    field.sample seed = field.sampleText seed := by
  simp [sample, htype, hallowed]

/-- A text field that has a sample has a text for one. -/
theorem exists_sample_eq_string (htype : field.type = .string) (h : field.HasSample seed) :
    ∃ text, field.sample seed = .string text := by
  by_cases hallowed : field.enumValues.getD [] = []
  · rw [sample_of_getD_eq_nil htype hallowed]
    rcases field.sampleText_eq seed with ⟨-, htext⟩ | ⟨hreach, -⟩
    · exact htext
    · simp only [HasSample, htype, hallowed, ne_eq, not_true, false_or] at h
      exact absurd h hreach
  · cases hvalues : field.enumValues with
    | none => simp [hvalues] at hallowed
    | some allowed =>
      obtain ⟨text, -, htext⟩ := sample_of_allowed htype hvalues (by simpa [hvalues] using hallowed)
        seed
      exact ⟨text, htext⟩

/-- Where there is no sample, `null` stands for it. -/
theorem sample_eq_null (h : ¬ field.HasSample seed) : field.sample seed = .null := by
  cases htype : field.type with
  | string =>
    simp only [HasSample, htype, not_or, not_not] at h
    rw [sample_of_getD_eq_nil htype h.1]
    rcases field.sampleText_eq seed with ⟨hreach, -⟩ | ⟨-, htext⟩
    · exact absurd hreach h.2
    · exact htext
  | number | integer | boolean => simp [HasSample, htype] at h
  | array | object | unknown => simp [sample, htype]

/-- A sample is of the kind of its field. -/
theorem accepts_sample (h : field.HasSample seed) :
    field.type.accepts (field.sample seed) = true ∧ (field.sample seed).isNull = false := by
  cases htype : field.type with
  | string =>
    obtain ⟨text, htext⟩ := exists_sample_eq_string htype h
    rw [htext]
    exact ⟨rfl, rfl⟩
  | number =>
    simp only [sample, htype]
    cases oneAndHalf (seed + 1) <;> exact ⟨rfl, rfl⟩
  | integer | boolean => simp [sample, htype, FieldType.accepts, Json.ofNat, Json.isNull]
  | array | object | unknown => simp [HasSample, htype] at h

/-- Only texts have a text for a sample. -/
theorem type_eq_string_of_sample {text : String} (h : field.sample seed = .string text) :
    field.type = .string := by
  cases htype : field.type with
  | string => rfl
  | number | integer | boolean | array | object | unknown =>
    simp [sample, htype, Json.ofNat] at h

end Field

/-! ### Sample rows -/

namespace Entity

variable {entity : Entity} {field : Field} {seed : Nat}

/-- The entries of a sample row before it is given a key. -/
def shown (entity : Entity) (seed : Nat) : Record :=
  .ofList ((entity.fields.filter (!·.isWriteOnly)).map fun field => (field.name, field.sample seed))

theorem sample_eq (entity : Entity) (seed : Nat) :
    entity.sample seed = entity.withKey (entity.shown seed) (toString (seed + 1)) := rfl

theorem lookup_shown (hnodup : (entity.fields.map Field.name).Nodup)
    (hfield : field ∈ entity.fields) (seed : Nat) :
    (entity.shown seed).lookup field.name =
      if field.isWriteOnly then none else some (field.sample seed) := by
  have hkeys : ∀ fields : List Field,
      Entries.keys (fields.map fun field => (field.name, field.sample seed)) =
        fields.map Field.name := fun fields => by simp [Entries.keys]
  have hshown : (Entries.keys ((entity.fields.filter (!·.isWriteOnly)).map fun field =>
      (field.name, field.sample seed))).Nodup := by
    rw [hkeys]
    exact hnodup.sublist (List.filter_sublist.map _)
  rw [shown, Entries.lookup_ofList hshown]
  split
  · rename_i hwrite
    rw [Entries.lookup_eq_none_iff, hkeys, List.mem_map]
    rintro ⟨other, hother, hname⟩
    obtain ⟨hother, hread⟩ := List.mem_filter.mp hother
    obtain rfl := List.inj_on_of_nodup_map hnodup hother hfield hname
    simp [hwrite] at hread
  · rename_i hread
    exact Entries.lookup_of_mem hshown
      (List.mem_map_of_mem (List.mem_filter.mpr ⟨hfield, by simpa using hread⟩))

/-- Giving a record a key changes nothing under the other names. -/
theorem lookup_withKey {name : String} (hname : entity.primaryKey ≠ some name) (record : Record)
    (key : String) : (entity.withKey record key).lookup name = record.lookup name := by
  unfold withKey
  split
  · rename_i primary hprimary
    split
    · rfl
    · rw [Entries.lookup_insert, if_neg]
      rintro rfl
      exact hname hprimary
  · rfl

theorem isKey_iff : entity.isKey field = true ↔ entity.primaryKey = some field.name := by
  simp [isKey]

/-- The text that a sample row holds under the primary key: the sample of the field, if it is a text
and shown, else a number. -/
def sampleKey (entity : Entity) (field : Field) (seed : Nat) : String :=
  (((entity.shown seed).lookup field.name).bind Json.string?).getD (toString (seed + 1))

theorem lookup_sample_of_isKey (hkey : entity.isKey field = true) (seed : Nat) :
    (entity.sample seed).lookup field.name = some (.string (entity.sampleKey field seed)) := by
  have hprimary := isKey_iff.mp hkey
  rw [sample_eq, lookup_withKey_of_primaryKey hprimary, key?_eq hprimary, sampleKey]

theorem lookup_sample_of_not_isKey (hkey : entity.isKey field = false) (seed : Nat) :
    (entity.sample seed).lookup field.name = (entity.shown seed).lookup field.name :=
  lookup_withKey (by simpa [isKey] using hkey) _ _

/-! ### Valid sample rows -/

theorem validate_eq_ok_iff {record : Record} :
    entity.validate record = .ok () ↔
      ∀ field ∈ entity.fields, entity.fieldProblem? record field = none := by
  rw [← List.filterMap_eq_nil_iff, ← problems, validate]
  split <;> simp_all

/-- A value of the right kind is wrong only if it is a text that is not allowed. -/
theorem valueProblem?_eq_none_iff {value : Json}
    (h : field.type.accepts value = true ∨ entity.isKey field = true ∧ value.isString = true) :
    entity.valueProblem? field value = none ↔
      ∀ allowed text, field.enumValues = some allowed → value = .string text → text ∈ allowed := by
  have haccepted :
      (!field.type.accepts value && !(entity.isKey field && value.isString)) = false := by
    rcases h with h | ⟨hkey, htext⟩
    · simp [h]
    · simp [hkey, htext]
  unfold valueProblem?
  rw [haccepted, if_neg Bool.false_ne_true]
  split
  · rename_i allowed text hallowed
    by_cases hmem : text ∈ allowed <;> simp [hallowed, hmem]
  · rename_i hother
    exact iff_of_true rfl fun allowed text hallowed htext =>
      (hother allowed text hallowed htext).elim

theorem fieldProblem?_of_value? {record : Record} {value : Json}
    (h : record.lookup field.name = some value) (hnull : value.isNull = false) :
    entity.fieldProblem? record field = entity.valueProblem? field value := by
  have hvalue : record.value? field.name = some value := by
    rw [Record.value?, h, Option.filter_some, if_pos (by simpa using hnull)]
  rw [fieldProblem?, hvalue]

theorem fieldProblem?_eq_none_iff_of_absent {record : Record}
    (h : ∀ value, record.lookup field.name = some value → value.isNull = true) :
    entity.fieldProblem? record field = none ↔
      (field.required = true → field.isReadOnly = true) := by
  have hvalue : record.value? field.name = none :=
    Option.filter_eq_none_iff.mpr fun value hvalue => by simpa using h value hvalue
  rw [fieldProblem?, hvalue]
  cases field.required <;> cases field.isReadOnly <;> simp

/-- A sample row has nothing wrong with a field.  The primary key always holds a text, which must be
one of those that are allowed; of the other fields those that are demanded must be there, and none
for which no text is allowed. -/
def SampleFits (entity : Entity) (field : Field) (seed : Nat) : Prop :=
  if entity.isKey field then
    ∀ allowed, field.enumValues = some allowed →
      field.type = .string ∧ field.isWriteOnly = false ∧ allowed ≠ [] ∨
        toString (seed + 1) ∈ allowed
  else
    (field.required = true → field.isReadOnly = true ∨ field.Shows seed) ∧
      (field.type = .string → field.enumValues = some [] → ¬ field.Shows seed)

section Fits

variable (hnodup : (entity.fields.map Field.name).Nodup) (hfield : field ∈ entity.fields)

include hnodup hfield

theorem sampleKey_mem_iff {allowed : List String} (hallowed : field.enumValues = some allowed)
    (seed : Nat) :
    entity.sampleKey field seed ∈ allowed ↔
      field.type = .string ∧ field.isWriteOnly = false ∧ allowed ≠ [] ∨
        toString (seed + 1) ∈ allowed := by
  rw [sampleKey, lookup_shown hnodup hfield]
  by_cases hwrite : field.isWriteOnly = true
  · simp [hwrite]
  · by_cases htype : field.type = .string
    · by_cases hne : allowed = []
      · simp [hne]
      · obtain ⟨text, hmem, htext⟩ := Field.sample_of_allowed htype hallowed hne seed
        simp [hwrite, htype, hne, htext, hmem, Json.string?]
    · have hnone : (field.sample seed).string? = none := by
        cases hsample : field.sample seed with
        | string text => exact absurd (Field.type_eq_string_of_sample hsample) htype
        | null | bool | number | array | object => rfl
      simp [hwrite, htype, hnone]

theorem fieldProblem?_sample_of_isKey (hkey : entity.isKey field = true) (seed : Nat) :
    entity.fieldProblem? (entity.sample seed) field = none ↔ entity.SampleFits field seed := by
  rw [fieldProblem?_of_value? (lookup_sample_of_isKey hkey seed) rfl,
    valueProblem?_eq_none_iff (.inr ⟨hkey, rfl⟩), SampleFits, if_pos hkey]
  constructor
  · intro h allowed hallowed
    exact (sampleKey_mem_iff hnodup hfield hallowed seed).mp (h allowed _ hallowed rfl)
  · rintro h allowed text hallowed ⟨⟩
    exact (sampleKey_mem_iff hnodup hfield hallowed seed).mpr (h allowed hallowed)

theorem fieldProblem?_sample_of_not_isKey (hkey : entity.isKey field = false) (seed : Nat) :
    entity.fieldProblem? (entity.sample seed) field = none ↔ entity.SampleFits field seed := by
  have hlookup := (lookup_sample_of_not_isKey hkey seed).trans (lookup_shown hnodup hfield seed)
  rw [SampleFits, if_neg (by simp [hkey])]
  by_cases hshows : field.Shows seed
  · obtain ⟨haccepts, hnull⟩ := Field.accepts_sample hshows.2
    rw [hshows.1] at hlookup
    rw [fieldProblem?_of_value? hlookup hnull, valueProblem?_eq_none_iff (.inl haccepts)]
    constructor
    · intro h
      refine ⟨fun _ => .inr hshows, fun htype hallowed _ => ?_⟩
      obtain ⟨text, htext⟩ := Field.exists_sample_eq_string htype hshows.2
      exact List.not_mem_nil (h [] text hallowed htext)
    · rintro ⟨-, h⟩ allowed text hallowed htext
      have htype := Field.type_eq_string_of_sample htext
      have hne : allowed ≠ [] := by
        rintro rfl
        exact h htype hallowed hshows
      obtain ⟨other, hmem, hother⟩ := Field.sample_of_allowed htype hallowed hne seed
      obtain rfl : text = other := Json.string.inj (htext.symm.trans hother)
      exact hmem
  · rw [fieldProblem?_eq_none_iff_of_absent]
    · simp [hshows]
    · intro value hvalue
      rw [hlookup] at hvalue
      split at hvalue
      · cases hvalue
      · rename_i hread
        have hnone : ¬ field.HasSample seed := fun h => hshows ⟨by simpa using hread, h⟩
        rw [← Option.some.inj hvalue, Field.sample_eq_null hnone]
        rfl

end Fits

/-- A sample row is valid exactly if each field fits. -/
theorem validate_sample_eq_ok_iff (hnodup : (entity.fields.map Field.name).Nodup) (seed : Nat) :
    entity.validate (entity.sample seed) = .ok () ↔
      ∀ field ∈ entity.fields, entity.SampleFits field seed := by
  rw [validate_eq_ok_iff]
  refine forall₂_congr fun field hfield => ?_
  cases hkey : entity.isKey field with
  | true => exact fieldProblem?_sample_of_isKey hnodup hfield hkey seed
  | false => exact fieldProblem?_sample_of_not_isKey hnodup hfield hkey seed

end Entity

end CrudUi
