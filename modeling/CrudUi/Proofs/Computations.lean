import Mathlib.Data.List.Forall2

/-!
# Computations that succeed

A computation made of several succeeds if each of them does, and the results are then those of the
parts.
-/

namespace CrudUi

variable {ε α β : Type}

theorem bind_eq_ok_iff {first : Except ε α} {next : α → Except ε β} {result : β} :
    first >>= next = .ok result ↔ ∃ value, first = .ok value ∧ next value = .ok result := by
  cases first with
  | error error => simp [bind, Except.bind]
  | ok value => simp [bind, Except.bind]

theorem pure_eq_ok_iff {value result : α} :
    (pure value : Except ε α) = .ok result ↔ value = result := by
  simp [pure, Except.pure]

theorem map_eq_ok_iff {f : α → β} {computation : Except ε α} {result : β} :
    f <$> computation = .ok result ↔ ∃ value, computation = .ok value ∧ f value = result := by
  cases computation <;> simp

theorem mapError_eq_ok_iff {ε' : Type} {f : ε → ε'} {computation : Except ε α} {result : α} :
    computation.mapError f = .ok result ↔ computation = .ok result := by
  cases computation <;> simp [Except.mapError]

theorem toOption_eq_some_iff {computation : Except ε α} {result : α} :
    computation.toOption = some result ↔ computation = .ok result := by
  cases computation <;> simp [Except.toOption]

/-- A list of computations succeeds if each of them does, with the results in their order. -/
theorem mapM_eq_ok_iff {compute : α → Except ε β} {values : List α} {results : List β} :
    values.mapM compute = .ok results ↔
      List.Forall₂ (fun value result => compute value = .ok result) values results := by
  induction values generalizing results with
  | nil =>
    rw [List.mapM_nil, pure_eq_ok_iff, List.forall₂_nil_left_iff]
    exact eq_comm
  | cons value rest ih =>
    rw [List.mapM_cons, bind_eq_ok_iff, List.forall₂_cons_left_iff]
    constructor
    · rintro ⟨result, hresult, h⟩
      obtain ⟨results, hresults, h⟩ := bind_eq_ok_iff.mp h
      exact ⟨result, results, hresult, ih.mp hresults, (pure_eq_ok_iff.mp h).symm⟩
    · rintro ⟨result, results, hresult, hresults, rfl⟩
      exact ⟨result, hresult, bind_eq_ok_iff.mpr ⟨results, ih.mpr hresults, rfl⟩⟩

theorem exists_mapM_eq_ok_iff {compute : α → Except ε β} {values : List α} :
    (∃ results, values.mapM compute = .ok results) ↔
      ∀ value ∈ values, ∃ result, compute value = .ok result := by
  simp only [mapM_eq_ok_iff]
  induction values with
  | nil => simp
  | cons value rest ih =>
    rw [List.forall_mem_cons, ← ih]
    constructor
    · rintro ⟨results, h⟩
      obtain ⟨result, results, hresult, hresults, -⟩ := List.forall₂_cons_left_iff.mp h
      exact ⟨⟨result, hresult⟩, results, hresults⟩
    · rintro ⟨⟨result, hresult⟩, results, hresults⟩
      exact ⟨result :: results, .cons hresult hresults⟩

/-- What a list of computations fails with, one of them fails with. -/
theorem exists_of_mapM_eq_error {compute : α → Except ε β} {values : List α} {error : ε}
    (h : values.mapM compute = .error error) : ∃ value ∈ values, compute value = .error error := by
  induction values with
  | nil => cases h
  | cons value rest ih =>
    rw [List.mapM_cons] at h
    cases hvalue : compute value with
    | error found =>
      rw [hvalue] at h
      obtain rfl := Except.error.inj h
      exact ⟨value, List.mem_cons_self, hvalue⟩
    | ok result =>
      cases hrest : rest.mapM compute with
      | error found =>
        rw [hvalue, hrest] at h
        obtain rfl := Except.error.inj h
        obtain ⟨other, hother, hcompute⟩ := ih hrest
        exact ⟨other, List.mem_cons_of_mem _ hother, hcompute⟩
      | ok results =>
        rw [hvalue, hrest] at h
        cases h

/-- Lists of computations that are the same pair by pair have the same outcome. -/
theorem mapM_eq_of_forall₂ {α' : Type} {related : α → α' → Prop} {compute : α → Except ε β}
    {compute' : α' → Except ε β} {values : List α} {values' : List α'}
    (h : List.Forall₂ related values values')
    (hcompute : ∀ value value', related value value' → compute value = compute' value') :
    values.mapM compute = values'.mapM compute' := by
  induction h with
  | nil => rfl
  | cons hvalue _ ih => rw [List.mapM_cons, List.mapM_cons, hcompute _ _ hvalue, ih]

theorem exists_of_forall₂ {related : α → β → Prop} {values : List α} {results : List β}
    (h : List.Forall₂ related values results) {result : β} (hresult : result ∈ results) :
    ∃ value ∈ values, related value result := by
  induction h with
  | nil => exact absurd hresult List.not_mem_nil
  | cons hhead _ ih =>
    rcases List.mem_cons.mp hresult with rfl | hresult
    · exact ⟨_, List.mem_cons_self, hhead⟩
    · obtain ⟨value, hvalue, hrelated⟩ := ih hresult
      exact ⟨value, List.mem_cons_of_mem _ hvalue, hrelated⟩

end CrudUi
