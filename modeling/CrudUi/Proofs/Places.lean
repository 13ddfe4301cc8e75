import CrudUi.Entries
import Mathlib.Data.List.Basic

/-!
# Places in values

A `Place` says where in a value a part of it may stand: the part can be looked at, if it is there,
and another can be put there, which changes nothing else.  The laws say so: a part that is put where
it was found makes no difference, what is put is found, and of two parts put at the same place the
second stays.  Places of places are places again (`Place.comp`).

## Main definitions

* `Place` : a place in the values of a type for a value of another type.
* `Place.comp` : a place in what stands at a place.
* `Place.entry`, `Place.item`, `Place.field`, `Place.optional` : places in tables, lists, records
  and optional values.
-/

namespace CrudUi

/-- A place in the values of a type where a value of another type may stand. -/
structure Place (σ β : Type) where
  /-- What stands there. -/
  get? : σ → Option β
  /-- Puts something in the place of what stands there. -/
  put : β → σ → σ
  put_get? : ∀ {whole : σ} {part : β}, get? whole = some part → put part whole = whole
  get?_put : ∀ (part : β) (whole : σ), get? (put part whole) = (get? whole).map fun _ => part
  put_put : ∀ (part part' : β) (whole : σ), put part' (put part whole) = put part' whole

namespace Place

variable {σ β γ α : Type}

/-- A place in what stands at a place. -/
def comp (outer : Place σ β) (inner : Place β γ) : Place σ γ where
  get? whole := (outer.get? whole).bind inner.get?
  put part whole := match outer.get? whole with
    | some middle => outer.put (inner.put part middle) whole
    | none => whole
  put_get? {whole part} h := by
    obtain ⟨middle, hmiddle, hpart⟩ := Option.bind_eq_some_iff.mp h
    rw [hmiddle]
    exact (congrArg (outer.put · whole) (inner.put_get? hpart)).trans (outer.put_get? hmiddle)
  get?_put part whole := by
    cases hmiddle : outer.get? whole with
    | none => simp [hmiddle]
    | some middle => simp [hmiddle, outer.get?_put, inner.get?_put]
  put_put part part' whole := by
    cases hmiddle : outer.get? whole with
    | none => simp [hmiddle]
    | some middle => simp [hmiddle, outer.get?_put, outer.put_put, inner.put_put]

section Comp

variable {outer : Place σ β} {inner : Place β γ} {whole : σ} {middle : β}

theorem get?_comp (h : outer.get? whole = some middle) :
    (outer.comp inner).get? whole = inner.get? middle := by
  simp [comp, h]

theorem put_comp (h : outer.get? whole = some middle) (part : γ) :
    (outer.comp inner).put part whole = outer.put (inner.put part middle) whole := by
  simp [comp, h]

end Comp

/-- A field of a record, which is always there. -/
def field (get : σ → β) (set : β → σ → σ) (set_get : ∀ whole, set (get whole) whole = whole)
    (get_set : ∀ part whole, get (set part whole) = part)
    (set_set : ∀ part part' whole, set part' (set part whole) = set part' whole) : Place σ β where
  get? whole := some (get whole)
  put := set
  put_get? h := Option.some.inj h ▸ set_get _
  get?_put part whole := congrArg some (get_set part whole)
  put_put := set_set

/-- The value of an optional value. -/
def optional : Place (Option α) α where
  get? whole := whole
  put part whole := whole.map fun _ => part
  put_get? h := h ▸ rfl
  get?_put _ _ := rfl
  put_put _ _ whole := by cases whole <;> rfl

/-- The value under a name in a table. -/
def entry (name : String) : Place (Entries α) α where
  get? := Entries.lookup name
  put part whole := if name ∈ Entries.keys whole then Entries.insert name part whole else whole
  put_get? {whole part} h := by
    rw [if_pos (Entries.mem_keys_of_lookup h)]
    exact Entries.insert_of_lookup h
  get?_put part whole := by
    cases hold : Entries.lookup name whole with
    | none =>
      rw [if_neg (Entries.lookup_eq_none_iff.mp hold), hold]
      rfl
    | some old =>
      rw [if_pos (Entries.mem_keys_of_lookup hold), Entries.lookup_insert, if_pos rfl]
      rfl
  put_put part part' whole := by
    by_cases hname : name ∈ Entries.keys whole
    · rw [if_pos hname, if_pos hname, if_pos ((Entries.mem_keys_insert ..).mpr (.inl rfl)),
        Entries.insert_insert]
    · rw [if_neg hname]

theorem put_entry {name : String} {whole : Entries α} {part : α}
    (h : Entries.lookup name whole = some part) (new : α) :
    (entry name).put new whole = Entries.insert name new whole :=
  if_pos (Entries.mem_keys_of_lookup h)

/-- The item of a list at a position. -/
def item (position : ℕ) : Place (List α) α where
  get? whole := whole[position]?
  put part whole := whole.set position part
  put_get? {whole part} h := by
    obtain ⟨hlt, rfl⟩ := List.getElem?_eq_some_iff.mp h
    exact List.set_getElem_self hlt
  get?_put part whole := by
    rw [List.getElem?_set, if_pos rfl]
    by_cases hlt : position < whole.length
    · rw [if_pos hlt, List.getElem?_eq_getElem hlt]
      rfl
    · rw [if_neg hlt, List.getElem?_eq_none (Nat.le_of_not_lt hlt)]
      rfl
  put_put part part' whole := List.set_set ..

/-- A place that is none in the values that meet a condition. -/
def outside (place : Place σ β) (condition : σ → Bool)
    (hput : ∀ part whole, condition (place.put part whole) = condition whole) : Place σ β where
  get? whole := if condition whole then none else place.get? whole
  put part whole := if condition whole then whole else place.put part whole
  put_get? {whole part} h := by
    split at h
    · cases h
    · rename_i hcondition
      rw [if_neg hcondition, place.put_get? h]
  get?_put part whole := by
    by_cases hcondition : condition whole
    · simp [hcondition]
    · simp [hcondition, hput, place.get?_put]
  put_put part part' whole := by
    by_cases hcondition : condition whole
    · simp [hcondition]
    · simp [hcondition, hput, place.put_put]

section Outside

variable {place : Place σ β} {condition : σ → Bool}
  {hput : ∀ part whole, condition (place.put part whole) = condition whole} {whole : σ} {part : β}

theorem get?_outside_eq_some_iff :
    (place.outside condition hput).get? whole = some part ↔
      condition whole = false ∧ place.get? whole = some part := by
  cases h : condition whole <;> simp [outside, h]

theorem put_outside (h : (place.outside condition hput).get? whole = some part) (new : β) :
    (place.outside condition hput).put new whole = place.put new whole :=
  if_neg (Bool.eq_false_iff.mp (get?_outside_eq_some_iff.mp h).1)

end Outside

end Place

end CrudUi
