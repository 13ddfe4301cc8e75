import CrudUi.Calendar
import Mathlib.Data.List.Basic
import Mathlib.Logic.Function.Basic
import Mathlib.Tactic.IntervalCases

/-!
# Days, dates and their texts

The date of a day is the one that the leap years of the Gregorian calendar give: counting the days
of the years before it and of its months leads back to the day (`Date.toDay_ofDay`).  So two days
have different dates, and different dates are written differently, by themselves as well as with
the time (`Date.text_injective`, `Date.midnightText_injective`).

## Main definitions

* `Date.daysBefore` : the number of days in the years before a year.
* `Date.toDay` : the day of a date.
-/

namespace CrudUi.Date

/-! ### Days -/

/-- The number of days in the years before a year, counted from the year 0: every fourth year has a
day more, but not every hundredth, though every four hundredth. -/
def daysBefore (year : Int) : Int :=
  365 * year + year / 4 - year / 100 + year / 400

/-- The day of a date.  Years are counted from a first of March, so that January and February
belong to the year before. -/
def toDay (date : Date) : Int :=
  let year := if date.month ≤ 2 then date.year - 1 else date.year
  let monthFromMarch := if date.month ≤ 2 then date.month + 9 else date.month - 3
  daysBefore year + (153 * monthFromMarch + 2) / 5 + date.day - 1 - daysToEpoch

/-- The year of an era to which a day of the era belongs. -/
def yearOfEra (day : Nat) : Nat :=
  (day - day / 1460 + day / 36524 - day / 146096) / 365

/-- The day on which a year of an era begins. -/
def firstDay (year : Nat) : Nat :=
  365 * year + year / 4 - year / 100

/-- The date of a day of a year that begins in March. -/
def ofYearDay (year : Int) (dayOfYear : Nat) : Date :=
  let monthFromMarch := (5 * dayOfYear + 2) / 153
  let month := if monthFromMarch < 10 then monthFromMarch + 3 else monthFromMarch - 9
  { year := if month ≤ 2 then year + 1 else year
    month
    day := dayOfYear - (153 * monthFromMarch + 2) / 5 + 1 }

theorem daysBefore_add (era : Int) {year : Nat} (h : year ≤ 399) :
    daysBefore (400 * era + year) = daysInEra * era + firstDay year := by
  unfold daysBefore daysInEra firstDay
  omega

/-- The date of a day is found by its year within the era and by the day of that year. -/
theorem ofDay_eq (era : Int) {day : Nat} (h : day < daysInEra) :
    ofDay (daysInEra * era + day - daysToEpoch) =
      ofYearDay (400 * era + yearOfEra day) (day - firstDay (yearOfEra day)) := by
  have hshifted : daysInEra * era + day - daysToEpoch + daysToEpoch =
      daysInEra * era + (day : Int) := by omega
  have hera : (daysInEra * era + day : Int).fdiv daysInEra = era := by
    rw [Int.fdiv_eq_ediv_of_nonneg _ (by decide)]
    unfold daysInEra at h ⊢
    omega
  have hday : (daysInEra * era + day : Int).fmod daysInEra = day := by
    rw [Int.fmod_eq_emod_of_nonneg _ (by decide)]
    unfold daysInEra at h ⊢
    omega
  rw [ofDay, hshifted, hera, hday]
  rfl

/-- A day of an era belongs to one of 400 years, none of which has more than 366 days. -/
theorem firstDay_yearOfEra_le {day : Nat} (h : day < daysInEra) :
    yearOfEra day ≤ 399 ∧ firstDay (yearOfEra day) ≤ day ∧
      day ≤ firstDay (yearOfEra day) + 365 := by
  obtain ⟨fourth, hfourth⟩ : ∃ fourth, day / 1460 = fourth := ⟨_, rfl⟩
  obtain ⟨century, hcentury⟩ : ∃ century, day / 36524 = century := ⟨_, rfl⟩
  obtain ⟨year, hyear⟩ : ∃ year, yearOfEra day = year := ⟨_, rfl⟩
  unfold daysInEra at h
  rw [hyear]
  simp only [yearOfEra, hfourth, hcentury] at hyear
  unfold firstDay
  have hle : century ≤ 4 := by omega
  -- The last day of an era is the leap day that its last year has all the same.
  by_cases hlast : day = 146096
  · subst hlast
    omega
  · have hleaps : year / 4 ≤ fourth ∧ year / 100 = century := by
      interval_cases century <;> omega
    interval_cases century <;> omega

theorem toDay_ofYearDay (year : Int) {day : Nat} (h : day ≤ 365) :
    (ofYearDay year day).toDay = daysBefore year + day - daysToEpoch := by
  simp only [toDay, ofYearDay]
  by_cases hmonth : (5 * day + 2) / 153 < 10
  · have hlate : ¬ (5 * day + 2) / 153 + 3 ≤ 2 := by omega
    simp only [hmonth, hlate, if_true, if_false]
    omega
  · have hearly : (5 * day + 2) / 153 - 9 ≤ 2 := by omega
    simp only [hmonth, hearly, if_true, if_false, Int.add_sub_cancel]
    omega

/-- The date of a day is the date that the calendar gives it. -/
theorem toDay_ofDay (n : Int) : (ofDay n).toDay = n := by
  obtain ⟨era, day, hday, rfl⟩ : ∃ (era : Int) (day : Nat), day < daysInEra ∧
      daysInEra * era + day - daysToEpoch = n := by
    refine ⟨(n + daysToEpoch) / daysInEra, ((n + daysToEpoch) % daysInEra).toNat, ?_, ?_⟩ <;>
      unfold daysInEra <;> omega
  obtain ⟨hyear, hfirst, hlast⟩ := firstDay_yearOfEra_le hday
  rw [ofDay_eq era hday, toDay_ofYearDay _ (by omega), daysBefore_add era hyear]
  omega

theorem ofDay_injective : Function.Injective ofDay :=
  Function.LeftInverse.injective toDay_ofDay

/-! ### Texts -/

theorem isDigit_of_mem_padded {width n : Nat} {c : Char} (h : c ∈ (padded width n).toList) :
    c.isDigit := by
  rw [padded, String.toList_ofList] at h
  rcases List.mem_append.mp h with h | h
  · rw [List.eq_of_mem_replicate h]
    rfl
  · exact Nat.isDigit_of_mem_toDigits (by decide) (by decide) h

theorem dash_notMem_padded (width n : Nat) : '-' ∉ (padded width n).toList := fun h =>
  absurd (isDigit_of_mem_padded h) (by decide)

/-- Zeros in front do not change a number. -/
theorem padded_injective (width : Nat) : Function.Injective (padded width) := by
  have hvalue (n : Nat) : Nat.ofDigitChars 10 (padded width n).toList 0 = n := by
    rw [padded, String.toList_ofList, Nat.ofDigitChars_append, Nat.ofDigitChars_replicate_zero,
      Nat.mul_zero, Nat.ofDigitChars_ten_toDigits]
  intro m n h
  rw [← hvalue m, h, hvalue]

theorem dash_mem_yearText_iff {year : Int} : '-' ∈ (yearText year).toList ↔ year < 0 := by
  have hdigits := dash_notMem_padded 4 year.natAbs
  rw [yearText]
  split_ifs with hneg hlong <;> simp [hneg, hdigits]

theorem filter_isDigit_yearText (year : Int) :
    (yearText year).toList.filter Char.isDigit = (padded 4 year.natAbs).toList := by
  have hdigits : (padded 4 year.natAbs).toList.filter Char.isDigit = (padded 4 year.natAbs).toList :=
    List.filter_eq_self.mpr fun _ => isDigit_of_mem_padded
  rw [yearText, String.toList_append, List.filter_append, hdigits]
  split_ifs <;> simp [Char.isDigit]

theorem yearText_injective : Function.Injective yearText := by
  intro year year' h
  have hdigits : padded 4 year.natAbs = padded 4 year'.natAbs := by
    rw [← String.toList_inj, ← filter_isDigit_yearText, h, filter_isDigit_yearText]
  have hsign : year < 0 ↔ year' < 0 := by
    rw [← dash_mem_yearText_iff, h, dash_mem_yearText_iff]
  have habs := padded_injective 4 hdigits
  omega

/-- A list falls into two parts at the last place of a separator in one way. -/
theorem append_cons_inj_of_last {α : Type} {separator : α} {front front' back back' : List α}
    (hback : separator ∉ back) (hback' : separator ∉ back')
    (h : front ++ separator :: back = front' ++ separator :: back') :
    front = front' ∧ back = back' := by
  rcases List.append_eq_append_iff.mp h with ⟨_ | ⟨first, rest⟩, hfront, hrest⟩ |
    ⟨_ | ⟨first, rest⟩, hfront, hrest⟩
  · simp_all
  · obtain ⟨rfl, rfl⟩ := List.cons.inj hrest
    simp at hback
  · simp_all
  · obtain ⟨rfl, rfl⟩ := List.cons.inj hrest
    simp at hback'

theorem append_dash_inj {front front' back back' : String} (hback : '-' ∉ back.toList)
    (hback' : '-' ∉ back'.toList) (h : front ++ "-" ++ back = front' ++ "-" ++ back') :
    front = front' ∧ back = back' := by
  have hlist : front.toList ++ '-' :: back.toList = front'.toList ++ '-' :: back'.toList := by
    simpa using congrArg String.toList h
  simpa only [String.toList_inj] using append_cons_inj_of_last hback hback' hlist

theorem text_injective : Function.Injective text := by
  intro date date' h
  obtain ⟨h, hday⟩ := append_dash_inj (dash_notMem_padded 2 _) (dash_notMem_padded 2 _) h
  obtain ⟨hyear, hmonth⟩ := append_dash_inj (dash_notMem_padded 2 _) (dash_notMem_padded 2 _) h
  cases date
  cases date'
  congr
  · exact yearText_injective hyear
  · exact padded_injective 2 hmonth
  · exact padded_injective 2 hday

theorem midnightText_injective : Function.Injective midnightText := fun _ _ h =>
  text_injective ((String.append_left_inj _).mp h)

theorem dash_mem_text (date : Date) : '-' ∈ date.text.toList := by
  simp [text]

theorem dash_mem_midnightText (date : Date) : '-' ∈ date.midnightText.toList := by
  simp [midnightText, dash_mem_text]

end CrudUi.Date
