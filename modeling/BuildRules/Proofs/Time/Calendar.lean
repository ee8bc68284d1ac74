import BuildRules.Time.Iso
import Mathlib.Tactic.SplitIfs

namespace BuildRules.Time

/-- A day as whole cycles of 400, 100, 4 and 1 years and the days left over. Only the last
day of a leap year leaves 365. -/
structure Cycles (day of400 of100 of4 of1 left : Nat) : Prop where
  whole : day = 146097 * of400 + 36524 * of100 + 1461 * of4 + 365 * of1 + left
  in400 : of100 ≤ 3
  in100 : of4 ≤ 24
  in4 : of1 ≤ 3
  short : left ≤ 365
  leap : left = 365 → of1 = 3 ∧ (of4 = 24 → of100 = 3)

theorem exists_cycles (day : Nat) : ∃ of400 of100 of4 of1 left,
    Cycles day of400 of100 of4 of1 left ∧
      yearOfDay day = 400 * of400 + 100 * of100 + 4 * of4 + of1 + 1 := by
  obtain ⟨of100, cycles100⟩ : ∃ count, count = min 3 (day % 146097 / 36524) := ⟨_, rfl⟩
  obtain ⟨in100, days100⟩ : ∃ days, days = day % 146097 - of100 * 36524 := ⟨_, rfl⟩
  obtain ⟨of1, cycles1⟩ : ∃ count, count = min 3 (in100 % 1461 / 365) := ⟨_, rfl⟩
  have year : yearOfDay day = 400 * (day / 146097) + 100 * of100 + 4 * (in100 / 1461) + of1 + 1 := by
    simp only [yearOfDay, days100, cycles100, cycles1]
  have whole100 : day % 146097 = 36524 * of100 + in100 := by omega
  have bound100 : in100 ≤ 36524 ∧ (in100 = 36524 → of100 = 3) := by omega
  refine ⟨day / 146097, of100, in100 / 1461, of1, in100 % 1461 - 365 * of1, ?_, year⟩
  constructor <;> omega

theorem daysBeforeYear_cycles (of400 : Nat) {of100 of4 of1 : Nat} (in400 : of100 ≤ 3)
    (in100 : of4 ≤ 24) (in4 : of1 ≤ 3) :
    daysBeforeYear (400 * of400 + 100 * of100 + 4 * of4 + of1 + 1) =
      146097 * of400 + 36524 * of100 + 1461 * of4 + 365 * of1 := by
  have by4 : (400 * of400 + 100 * of100 + 4 * of4 + of1) / 4 =
      100 * of400 + 25 * of100 + of4 := by omega
  have by100 : (400 * of400 + 100 * of100 + 4 * of4 + of1) / 100 = 4 * of400 + of100 := by omega
  have by400 : (400 * of400 + 100 * of100 + 4 * of4 + of1) / 400 = of400 := by omega
  simp only [daysBeforeYear, Nat.add_sub_cancel, by4, by100, by400]
  omega

theorem isLeap_iff (year : Nat) :
    isLeap year = true ↔ year % 4 = 0 ∧ (year % 100 ≠ 0 ∨ year % 400 = 0) := by
  simp [isLeap]

theorem yearOfDay_pos (day : Nat) : 0 < yearOfDay day := by
  simp [yearOfDay]

theorem daysBeforeYear_le (day : Nat) : daysBeforeYear (yearOfDay day) ≤ day := by
  obtain ⟨of400, of100, of4, of1, left, cycles, year⟩ := exists_cycles day
  rw [year, daysBeforeYear_cycles of400 cycles.in400 cycles.in100 cycles.in4, cycles.whole]
  omega

/-- A day lies in its year. -/
theorem lt_daysInYear (day : Nat) :
    day - daysBeforeYear (yearOfDay day) < daysInYear (yearOfDay day) := by
  obtain ⟨of400, of100, of4, of1, left, cycles, year⟩ := exists_cycles day
  have before := daysBeforeYear_cycles of400 cycles.in400 cycles.in100 cycles.in4
  have rest : day - daysBeforeYear (yearOfDay day) = left := by
    have := cycles.whole
    rw [year, before]
    omega
  rw [rest, daysInYear]
  split
  · have := cycles.short
    omega
  · next common =>
    have short := cycles.short
    by_cases last : left = 365
    · obtain ⟨in4, in400⟩ := cycles.leap last
      have in100 := cycles.in100
      refine absurd ((isLeap_iff _).mpr ?_) common
      rw [year]
      omega
    · omega

/-- The month of a day counted from the first of several months, and its place there. -/
theorem monthAndDay_spec (first : Nat) {lengths : List Nat} {day : Nat}
    (within : day < lengths.foldr (· + ·) 0) :
    ∃ index past, monthAndDay first lengths day = (first + index, past + 1) ∧
      index < lengths.length ∧ past < lengths.getD index 0 ∧
      (lengths.take index).foldr (· + ·) 0 + past = day := by
  induction lengths generalizing first day with
  | nil => simp at within
  | cons length rest ih =>
    by_cases here : day < length
    · exact ⟨0, day, by simp [monthAndDay, here], by simp, by simpa using here, by simp⟩
    · have within : day - length < rest.foldr (· + ·) 0 := by
        simp only [List.foldr_cons] at within
        omega
      obtain ⟨index, past, result, bound, short, whole⟩ := ih (first + 1) within
      refine ⟨index + 1, past, ?_, by simpa using bound, by simpa using short, ?_⟩
      · simp only [monthAndDay, here, ↓reduceIte, result]
        rw [Nat.add_assoc, Nat.add_comm 1]
      · simp only [List.take_succ_cons, List.foldr_cons]
        omega

theorem sum_monthLengths (year : Nat) :
    (monthLengths year).foldr (· + ·) 0 = daysInYear year := by
  cases leap : isLeap year <;> simp [monthLengths, daysInYear, leap]

/-- A day has a month of its year, and is found again under its date. -/
theorem monthOfDay_spec (day : Nat) : ∃ month date,
    monthOfDay day = (month, date) ∧ 0 < month ∧ month ≤ 12 ∧ 0 < date ∧
      date ≤ daysInMonth (yearOfDay day) month ∧ dayNumber (yearOfDay day) month date = day := by
  have within := lt_daysInYear day
  rw [← sum_monthLengths] at within
  obtain ⟨index, past, result, bound, short, whole⟩ := monthAndDay_spec 1 within
  have count : (monthLengths (yearOfDay day)).length = 12 := rfl
  have place : 1 + index - 1 = index := by omega
  refine ⟨1 + index, past + 1, result, by omega, by omega, by omega, ?_, ?_⟩
  · rw [daysInMonth, place]
    omega
  · have before := daysBeforeYear_le day
    rw [dayNumber, daysBeforeMonth, place, Nat.add_sub_cancel]
    omega

theorem daysInMonth_le (year month : Nat) : daysInMonth year month ≤ 31 := by
  have bound : ∀ length ∈ monthLengths year, length ≤ 31 := by
    intro length member
    cases leap : isLeap year <;> simp [monthLengths, leap] at member <;> omega
  rw [daysInMonth, List.getD_eq_getElem?_getD]
  cases found : (monthLengths year)[month - 1]? with
  | none => simp
  | some length => exact bound length (List.mem_of_getElem? found)

theorem one_lt_microCount : 1 < microCount := by decide

/-- The calendar ends with the year 9999. -/
theorem yearOfDay_le {day : Nat} (inRange : day < dayCount) : yearOfDay day ≤ 9999 := by
  obtain ⟨of400, of100, of4, of1, left, cycles, year⟩ := exists_cycles day
  have last : dayCount = 3652059 := by decide
  have whole := cycles.whole
  have in400 := cycles.in400
  have in100 := cycles.in100
  have in4 := cycles.in4
  omega

/-- The next year begins when the days of a year are over. -/
theorem daysBeforeYear_succ (past : Nat) :
    daysBeforeYear (past + 2) = daysBeforeYear (past + 1) + daysInYear (past + 1) := by
  have by4 : (past + 1) / 4 = past / 4 + if (past + 1) % 4 = 0 then 1 else 0 := by
    split <;> omega
  have by100 : (past + 1) / 100 = past / 100 + if (past + 1) % 100 = 0 then 1 else 0 := by
    split <;> omega
  have by400 : (past + 1) / 400 = past / 400 + if (past + 1) % 400 = 0 then 1 else 0 := by
    split <;> omega
  have fewer : past / 100 ≤ past / 4 := Nat.div_le_div_left (by decide) (by decide)
  have century : (past + 1) % 100 = 0 → (past + 1) % 4 = 0 := by omega
  have fourth : (past + 1) % 400 = 0 → (past + 1) % 100 = 0 := by omega
  change (past + 1) * 365 + (past + 1) / 4 - (past + 1) / 100 + (past + 1) / 400 =
    past * 365 + past / 4 - past / 100 + past / 400 + daysInYear (past + 1)
  simp only [by4, by100, by400, daysInYear, isLeap_iff]
  -- the quotients themselves play no part, only by which of them the year is counted
  generalize past / 4 = of4 at *
  generalize past / 100 = of100 at *
  generalize past / 400 = of400 at *
  split_ifs <;> omega

theorem daysBeforeYear_mono {year later : Nat} (le : year ≤ later) :
    daysBeforeYear year ≤ daysBeforeYear later := by
  induction le with
  | refl => exact Nat.le_refl _
  | @step later _ ih =>
    cases later with
    | zero => exact ih
    | succ past =>
      rw [Nat.succ_eq_add_one, daysBeforeYear_succ]
      exact Nat.le_trans ih (Nat.le_add_right _ _)

theorem lt_nextYear (day : Nat) : day < daysBeforeYear (yearOfDay day + 1) := by
  have before := daysBeforeYear_le day
  have within := lt_daysInYear day
  obtain ⟨past, year⟩ := Nat.exists_eq_add_one_of_ne_zero (Nat.ne_of_gt (yearOfDay_pos day))
  rw [year] at before within ⊢
  rw [daysBeforeYear_succ]
  omega

theorem yearOfDay_mono {day later : Nat} (le : day ≤ later) : yearOfDay day ≤ yearOfDay later := by
  apply Nat.le_of_not_lt
  intro after
  have next := daysBeforeYear_mono (show yearOfDay later + 1 ≤ yearOfDay day from after)
  have first := daysBeforeYear_le day
  have last := lt_nextYear later
  omega

/-- A month of a year is over before every later one begins. -/
theorem daysBeforeMonth_later (year : Nat) : ∀ month < 13, ∀ later < 13, 0 < month →
    month < later → daysBeforeMonth year month + daysInMonth year month ≤
      daysBeforeMonth year later := by
  cases leap : isLeap year <;>
  · simp only [daysBeforeMonth, daysInMonth, monthLengths, leap]
    decide

/-- An earlier day has an earlier year, or an earlier month of it, or an earlier date in that. -/
theorem date_before {day later : Nat} (before : day < later) :
    yearOfDay day < yearOfDay later ∨ yearOfDay day = yearOfDay later ∧
      ((monthOfDay day).1 < (monthOfDay later).1 ∨ (monthOfDay day).1 = (monthOfDay later).1 ∧
        (monthOfDay day).2 < (monthOfDay later).2) := by
  rcases Nat.lt_or_eq_of_le (yearOfDay_mono (Nat.le_of_lt before)) with year | year
  · exact .inl year
  · refine .inr ⟨year, ?_⟩
    obtain ⟨month, date, result, month_pos, month_le, date_pos, date_le, number⟩ :=
      monthOfDay_spec day
    obtain ⟨laterMonth, laterDate, laterResult, later_pos, later_le, laterDate_pos, laterDate_le,
      laterNumber⟩ := monthOfDay_spec later
    rw [result, laterResult]
    rw [← year] at laterDate_le laterNumber
    rw [dayNumber] at number laterNumber
    dsimp only
    rcases Nat.lt_trichotomy month laterMonth with less | same | more
    · exact .inl less
    · subst same
      exact .inr ⟨rfl, by omega⟩
    · have ended := daysBeforeMonth_later (yearOfDay day) laterMonth (by omega) month (by omega)
        later_pos more
      omega

end BuildRules.Time

namespace BuildRules.Timestamp

open Time

/-- The first microsecond of the calendar, or the one after it. -/
def dawn (next : Bool) (offset : Option Int) : Timestamp :=
  ⟨next.toNat, offset, Nat.lt_of_le_of_lt next.toNat_le one_lt_microCount⟩

theorem calendarDate?_of_day (day : Nat) {month date : Nat}
    (result : monthOfDay day = (month, date)) :
    calendarDate? (yearOfDay day) month date = some (day : Int) := by
  obtain ⟨_, _, same, month_pos, month_le, date_pos, date_le, number⟩ := monthOfDay_spec day
  rw [result, Prod.mk.injEq] at same
  obtain ⟨rfl, rfl⟩ := same
  have year := yearOfDay_pos day
  have valid : ¬ (yearOfDay day = 0 ∨ month = 0 ∨ 12 < month ∨ date = 0 ∨
      daysInMonth (yearOfDay day) month < date) := by omega
  rw [calendarDate?, if_neg valid, number]

end BuildRules.Timestamp
