import Mathlib.Tactic.IntervalCases
import Statechart.Trace.Timestamp

set_option autoImplicit false

namespace Statechart.Timestamp

/-- The leap years of the Gregorian calendar. -/
def IsLeap (year : Int) : Prop :=
  year % 4 = 0 ∧ (year % 100 ≠ 0 ∨ year % 400 = 0)

instance (year : Int) : Decidable (IsLeap year) :=
  inferInstanceAs (Decidable (_ ∧ _))

def daysIn (year : Int) (month : Nat) : Nat :=
  if month = 2 then if IsLeap year then 29 else 28
  else if month ∈ [4, 6, 9, 11] then 30
  else 31

/-- A day of an era of 400 years by its century, the group of four years in it, the year in the
group and the day of the year. Years begin in March, so that only the year before a leap year has
a day more. -/
structure DayOfEra where
  century : Int
  group : Int
  single : Int
  day : Int
  century_mem : 0 ≤ century ∧ century ≤ 3
  group_mem : 0 ≤ group ∧ group ≤ 24
  single_mem : 0 ≤ single ∧ single ≤ 3
  day_mem : 0 ≤ day ∧ (day ≤ 364 ∨ day = 365 ∧ single = 3 ∧ (group < 24 ∨ century = 3))

namespace DayOfEra

def year (d : DayOfEra) : Int :=
  100 * d.century + 4 * d.group + d.single

/-- The days of the era before this one. -/
def number (d : DayOfEra) : Int :=
  36524 * d.century + 1461 * d.group + 365 * d.single + d.day

theorem number_eq (d : DayOfEra) :
    d.number = d.year * 365 + d.year / 4 - d.year / 100 + d.day := by
  have ⟨_, _⟩ := d.century_mem
  have ⟨_, _⟩ := d.group_mem
  have ⟨_, _⟩ := d.single_mem
  have quarters : d.year / 4 = 25 * d.century + d.group := by unfold year; omega
  have hundreds : d.year / 100 = d.century := by unfold year; omega
  rw [quarters, hundreds, number, year]
  omega

/-- Four centuries are a day longer than four times one, and that day is the last of the era. -/
theorem number_div_centuries (d : DayOfEra) :
    d.number / 36524 - d.number / 146096 = d.century := by
  have ⟨_, _⟩ := d.century_mem
  have ⟨_, _⟩ := d.group_mem
  have ⟨_, _⟩ := d.single_mem
  have ⟨_, day⟩ := d.day_mem
  have inCentury : 0 ≤ 1461 * d.group + 365 * d.single + d.day := by omega
  have number : d.number = 36524 * d.century + (1461 * d.group + 365 * d.single + d.day) := by
    rw [DayOfEra.number]
    omega
  obtain ordinary | ⟨last, century⟩ :
      1461 * d.group + 365 * d.single + d.day ≤ 36523 ∨
        1461 * d.group + 365 * d.single + d.day = 36524 ∧ d.century = 3 := by
    rcases day with _ | ⟨_, _, _ | _⟩ <;> omega
  · omega
  · rw [number, last, century]
    rfl

/-- The year of a day is found by dropping the leap days before it. -/
theorem year_eq (d : DayOfEra) :
    (d.number - d.number / 1460 + d.number / 36524 - d.number / 146096) / 365 = d.year := by
  have ⟨_, _⟩ := d.century_mem
  have ⟨_, _⟩ := d.group_mem
  have ⟨_, _⟩ := d.single_mem
  have ⟨_, day⟩ := d.day_mem
  have centuries := d.number_div_centuries
  -- The quotient by 1460 counts a leap day more at the end of a group, when it is due.
  have quarters : d.number / 1460 = 25 * d.century + d.group ∧ d.day ≤ 364 ∨
      d.number / 1460 = 25 * d.century + d.group + 1 ∧ 1 ≤ d.day := by
    unfold number
    rcases day with _ | ⟨_, _, _⟩ <;> omega
  have number : d.number = 36524 * d.century + 1461 * d.group + 365 * d.single + d.day := rfl
  unfold year
  omega

/-- Every day of an era is in one of its years. -/
theorem exists_of_number {day : Int} (nonneg : 0 ≤ day) (lt : day < 146097) :
    ∃ d : DayOfEra, d.number = day := by
  obtain ⟨century, century_mem, rest, rest_nonneg, rest_lt, rfl⟩ :
      ∃ century : Int, (0 ≤ century ∧ century ≤ 3) ∧ ∃ rest : Int, 0 ≤ rest ∧
        (rest < 36524 ∨ rest = 36524 ∧ century = 3) ∧ day = 36524 * century + rest :=
    ⟨min (day / 36524) 3, by omega, day - 36524 * min (day / 36524) 3, by omega, by omega,
      by omega⟩
  obtain ⟨group, group_mem, inGroup, nonneg_inGroup, inGroup_lt, rfl⟩ :
      ∃ group : Int, (0 ≤ group ∧ group ≤ 24) ∧ ∃ inGroup : Int, 0 ≤ inGroup ∧
        (inGroup < 1460 ∨ inGroup = 1460 ∧ (group < 24 ∨ century = 3)) ∧
        rest = 1461 * group + inGroup :=
    ⟨rest / 1461, by omega, rest % 1461, by omega, by omega, by omega⟩
  refine ⟨⟨century, group, min (inGroup / 365) 3, inGroup - 365 * min (inGroup / 365) 3,
    century_mem, group_mem, by omega, by omega⟩, ?_⟩
  simp only [number]
  omega

theorem number_mem (d : DayOfEra) : 0 ≤ d.number ∧ d.number < 146097 := by
  have ⟨_, _⟩ := d.century_mem
  have ⟨_, _⟩ := d.group_mem
  have ⟨_, _⟩ := d.single_mem
  have ⟨_, day⟩ := d.day_mem
  unfold number
  rcases day with _ | ⟨_, _, _ | _⟩ <;> omega

theorem year_mem (d : DayOfEra) : 0 ≤ d.year ∧ d.year < 400 := by
  have ⟨_, _⟩ := d.century_mem
  have ⟨_, _⟩ := d.group_mem
  have ⟨_, _⟩ := d.single_mem
  unfold year
  omega

/-- Only the year before a leap year has room for a leap day at its end. -/
theorem day_mem_iff (d : DayOfEra) (era : Int) :
    d.day ≤ 364 ∨ d.day = 365 ∧ IsLeap (d.year + 400 * era + 1) := by
  have ⟨_, day⟩ := d.day_mem
  have ⟨_, _⟩ := d.century_mem
  have ⟨_, _⟩ := d.group_mem
  have ⟨_, _⟩ := d.single_mem
  unfold IsLeap year
  rcases day with _ | ⟨_, _, _ | _⟩ <;> omega

theorem exists_of_year {year day : Int} (nonneg : 0 ≤ day)
    (le : day ≤ 364 ∨ day = 365 ∧ IsLeap (year + 1)) :
    ∃ d : DayOfEra, d.year = year % 400 ∧ d.day = day := by
  unfold IsLeap at le
  refine ⟨⟨year % 400 / 100, year % 100 / 4, year % 4, day, by omega, by omega, by omega,
    nonneg, ?_⟩, ?_, rfl⟩
  · rcases le with _ | ⟨_, _, _ | _⟩ <;> omega
  · simp only [DayOfEra.year]
    omega

end DayOfEra

/-- The year that a month is in when years begin in March. -/
def marchYear (year : Int) (month : Nat) : Int :=
  if month ≤ 2 then year - 1 else year

def marchMonth (month : Nat) : Int :=
  if 2 < month then (month : Int) - 3 else month + 9

/-- The days of the year before this one when years begin in March. -/
def dayOfYear (month day : Nat) : Int :=
  (153 * marchMonth month + 2) / 5 + day - 1

theorem dayOfYear_mem {year : Int} {month day : Nat} (month_mem : 1 ≤ month ∧ month ≤ 12)
    (day_mem : 1 ≤ day ∧ day ≤ daysIn year month) :
    0 ≤ dayOfYear month day ∧ (dayOfYear month day ≤ 364 ∨
      dayOfYear month day = 365 ∧ IsLeap (marchYear year month + 1)) := by
  obtain ⟨_, _⟩ := month_mem
  unfold daysIn at day_mem
  unfold dayOfYear marchMonth marchYear
  interval_cases month <;> simp at day_mem ⊢ <;> grind

theorem dayNumber_eq (year : Int) (month day : Nat) :
    dayNumber year month day = marchYear year month / 400 * 146097 +
      (marchYear year month % 400 * 365 + marchYear year month % 400 / 4
        - marchYear year month % 400 / 100 + dayOfYear month day) - 719468 := by
  have rest : marchYear year month - marchYear year month / 400 * 400 =
      marchYear year month % 400 := by omega
  rw [← rest, ← Int.fdiv_eq_ediv_of_nonneg (marchYear year month) (by decide : (0 : Int) ≤ 400)]
  rfl

/-- The date of a day by the month since March that it is in. -/
def dateOf (marchYear k : Int) : Int × Nat × Nat :=
  let shiftedMonth := (5 * k + 2) / 153
  let month := if shiftedMonth < 10 then shiftedMonth + 3 else shiftedMonth - 9
  (if month ≤ 2 then marchYear + 1 else marchYear, month.toNat,
    (k - (153 * shiftedMonth + 2) / 5 + 1).toNat)

theorem ofDayNumber_eq (d : DayOfEra) (era : Int) :
    ofDayNumber (era * 146097 + d.number - 719468) = dateOf (d.year + era * 400) d.day := by
  have ⟨nonneg, lt⟩ := d.number_mem
  have eraOf : (era * 146097 + d.number - 719468 + 719468).fdiv 146097 = era := by
    rw [Int.fdiv_eq_ediv_of_nonneg _ (by decide)]
    omega
  have inEra : era * 146097 + d.number - 719468 + 719468 - era * 146097 = d.number := by omega
  have inYear : d.number - (365 * d.year + d.year / 4 - d.year / 100) = d.day := by
    rw [d.number_eq]
    omega
  simp only [ofDayNumber, eraOf, inEra, d.year_eq, inYear, dateOf]

theorem dateOf_dayOfYear {year : Int} {month day : Nat} (month_mem : 1 ≤ month ∧ month ≤ 12)
    (day_mem : 1 ≤ day ∧ day ≤ daysIn year month) :
    dateOf (marchYear year month) (dayOfYear month day) = (year, month, day) := by
  obtain ⟨_, _⟩ := month_mem
  have le : (5 * dayOfYear month day + 2) / 153 = marchMonth month := by
    unfold daysIn at day_mem
    unfold dayOfYear marchMonth
    interval_cases month <;> simp at day_mem ⊢ <;> grind
  unfold dateOf
  rw [le]
  unfold dayOfYear marchMonth marchYear
  interval_cases month <;> simp <;> omega

theorem exists_dayOfYear {year k : Int} (nonneg : 0 ≤ k)
    (le : k ≤ 364 ∨ k = 365 ∧ IsLeap (year + 1)) :
    ∃ (year' : Int) (month day : Nat), (1 ≤ month ∧ month ≤ 12) ∧
      (1 ≤ day ∧ day ≤ daysIn year' month) ∧
      marchYear year' month = year ∧ dayOfYear month day = k := by
  obtain ⟨m, m_eq⟩ : ∃ m, m = (5 * k + 2) / 153 := ⟨_, rfl⟩
  have : 0 ≤ m := by omega
  have : m ≤ 11 := by omega
  refine ⟨if m < 10 then year else year + 1, (if m < 10 then m + 3 else m - 9).toNat,
    (k - (153 * m + 2) / 5 + 1).toNat, ?_, ?_, ?_, ?_⟩
  · omega
  · unfold daysIn
    interval_cases m <;> simp <;> grind
  · unfold marchYear
    grind
  · unfold dayOfYear marchMonth
    interval_cases m <;> simp <;> omega

theorem ofDayNumber_dayNumber {year : Int} {month day : Nat} (month_mem : 1 ≤ month ∧ month ≤ 12)
    (day_mem : 1 ≤ day ∧ day ≤ daysIn year month) :
    ofDayNumber (dayNumber year month day) = (year, month, day) := by
  obtain ⟨nonneg, le⟩ := dayOfYear_mem month_mem day_mem
  obtain ⟨d, inEra, inYear⟩ := DayOfEra.exists_of_year nonneg le
  rw [dayNumber_eq, ← inEra, ← inYear, ← d.number_eq, ofDayNumber_eq, inEra, inYear,
    ← dateOf_dayOfYear month_mem day_mem]
  congr 1
  omega

theorem exists_dayNumber (number : Int) :
    ∃ (year : Int) (month day : Nat), (1 ≤ month ∧ month ≤ 12) ∧
      (1 ≤ day ∧ day ≤ daysIn year month) ∧ dayNumber year month day = number := by
  obtain ⟨d, inEra⟩ := DayOfEra.exists_of_number (show 0 ≤ (number + 719468) % 146097 by omega)
    (by omega)
  have ⟨nonneg, lt⟩ := d.year_mem
  obtain ⟨year, month, day, month_mem, day_mem, year_eq, day_eq⟩ :=
    exists_dayOfYear d.day_mem.1 (d.day_mem_iff ((number + 719468) / 146097))
  refine ⟨year, month, day, month_mem, day_mem, ?_⟩
  rw [dayNumber_eq, year_eq, day_eq]
  have era : (d.year + 400 * ((number + 719468) / 146097)) / 400 = (number + 719468) / 146097 := by
    omega
  have yearOfEra : (d.year + 400 * ((number + 719468) / 146097)) % 400 = d.year := by omega
  rw [era, yearOfEra, ← d.number_eq, inEra]
  omega

/-- Day numbers count the days of the Gregorian calendar. -/
theorem ofDayNumber_eq_iff (number year : Int) (month day : Nat) :
    ofDayNumber number = (year, month, day) ↔
      (1 ≤ month ∧ month ≤ 12) ∧ (1 ≤ day ∧ day ≤ daysIn year month) ∧
        dayNumber year month day = number := by
  constructor
  · intro date
    obtain ⟨year', month', day', month_mem, day_mem, rfl⟩ := exists_dayNumber number
    rw [ofDayNumber_dayNumber month_mem day_mem] at date
    obtain ⟨rfl, rfl, rfl⟩ := date
    exact ⟨month_mem, day_mem, rfl⟩
  · rintro ⟨month_mem, day_mem, rfl⟩
    exact ofDayNumber_dayNumber month_mem day_mem

theorem isDate_iff (year : Int) (month day : Nat) :
    isDate year month day ↔ (1 ≤ month ∧ month ≤ 12) ∧ 1 ≤ day ∧ day ≤ daysIn year month := by
  have date := ofDayNumber_eq_iff (dayNumber year month day) year month day
  simp only [isDate, Bool.and_eq_true, decide_eq_true_eq, date]
  grind

example : isDate 2000 2 29 ∧ ¬isDate 1900 2 29 := by decide

end Statechart.Timestamp
