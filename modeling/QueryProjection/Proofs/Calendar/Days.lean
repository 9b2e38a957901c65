import Mathlib.Tactic.IntervalCases
import QueryProjection.Calendar.Date

set_option autoImplicit false

namespace QueryProjection.Date

theorem isLeap_iff (year : Int) :
    isLeap year = true ↔ year % 4 = 0 ∧ (year % 100 ≠ 0 ∨ year % 400 = 0) := by
  simp [isLeap]

theorem yearOfEra_eq {year dayOfYear dayOfEra : Int}
    (isDay : dayOfEra = year * 365 + year / 4 - year / 100 + dayOfYear)
    (inEra : 0 ≤ year ∧ year < 400) (inYear : 0 ≤ dayOfYear ∧ dayOfYear ≤ 365)
    (leap : dayOfYear = 365 → isLeap (year + 1) = true) :
    (0 ≤ dayOfEra ∧ dayOfEra < 146097) ∧
      (dayOfEra - dayOfEra / 1460 + dayOfEra / 36524 - dayOfEra / 146096) / 365 = year := by
  rw [isLeap_iff] at leap
  -- An era is four centuries, a century 25 groups of four years.
  obtain ⟨century, group, single, isYear, hundreds, fours, ones⟩ : ∃ century group single : Int,
      year = 100 * century + 4 * group + single ∧ (0 ≤ century ∧ century < 4) ∧
        (0 ≤ group ∧ group < 25) ∧ 0 ≤ single ∧ single < 4 :=
    ⟨year / 100, year % 100 / 4, year % 4, by omega, by omega, by omega, by omega⟩
  have inGroups : dayOfEra = 36524 * century + 1461 * group + 365 * single + dayOfYear := by omega
  have within : dayOfEra < 36524 * (century + 1) ∨ century = 3 ∧ dayOfEra = 146096 := by omega
  have isCentury : dayOfEra / 36524 - dayOfEra / 146096 = century := by
    rcases within with within | ⟨rfl, rfl⟩
    · have whole : dayOfEra / 36524 = century := by omega
      omega
    · rfl
  have isGroup : dayOfEra / 1460 = 25 * century + group ∨
      dayOfEra / 1460 = 25 * century + group + 1 := by
    omega
  have isLast : dayOfYear = 365 → dayOfEra / 1460 = 25 * century + group + 1 := by omega
  omega

def daysFromMarch (month : Int) : Int :=
  if month = 11 then 29
  else if month = 1 ∨ month = 3 ∨ month = 6 ∨ month = 8 then 30
  else 31

theorem monthFromMarch_eq {month day dayOfYear : Int}
    (isDay : dayOfYear = (153 * month + 2) / 5 + day - 1) (inYear : 0 ≤ month ∧ month ≤ 11)
    (inMonth : 1 ≤ day ∧ day ≤ daysFromMarch month) :
    (0 ≤ dayOfYear ∧ dayOfYear ≤ 365) ∧ (dayOfYear = 365 → month = 11 ∧ day = 29) ∧
      (5 * dayOfYear + 2) / 153 = month := by
  obtain ⟨least, most⟩ := inYear
  unfold daysFromMarch at inMonth
  interval_cases month <;> norm_num at inMonth isDay <;> omega

def Valid (date : Date) : Prop :=
  ofParts? date.year date.month date.day = some date

theorem valid_of_ofParts? {year : Int} {month day : Nat} {date : Date}
    (made : ofParts? year month day = some date) :
    date.Valid ∧ date = ⟨year, month, day⟩ := by
  have same : date = ⟨year, month, day⟩ := by
    unfold ofParts? at made
    split at made <;> simp_all
  subst same
  exact ⟨made, rfl⟩

theorem Valid.bounds {date : Date} (valid : date.Valid) :
    (leastYear ≤ date.year ∧ date.year ≤ greatestYear) ∧ (1 ≤ date.month ∧ date.month ≤ 12) ∧
      1 ≤ date.day ∧ date.day ≤ daysInMonth date.year date.month := by
  unfold Valid ofParts? at valid
  split at valid
  next within =>
    simp only [Bool.and_eq_true, decide_eq_true_eq] at within
    omega
  next => simp at valid

theorem daysInMonth_le (year : Int) {month : Nat} (isMonth : 1 ≤ month ∧ month ≤ 12) :
    (daysInMonth year month : Int) ≤ daysFromMarch ((month + 9) % 12) := by
  obtain ⟨least, most⟩ := isMonth
  interval_cases month
  case «2» => cases leap : isLeap year <;> simp [daysInMonth, daysFromMarch, leap]
  all_goals rfl

theorem ofDayNumber_dayNumber {date : Date} (valid : date.Valid) :
    ofDayNumber date.dayNumber = date := by
  obtain ⟨-, isMonth, isDay⟩ := valid.bounds
  obtain ⟨ofDate, month, day⟩ := date
  dsimp only at isMonth isDay
  -- The parts of the day number are named, so that omega divides one of them at a time.
  obtain ⟨year, isYear⟩ : ∃ year : Int, year = if month ≤ 2 then ofDate - 1 else ofDate := ⟨_, rfl⟩
  obtain ⟨fromMarch, isFromMarch⟩ : ∃ fromMarch : Int, fromMarch = (month + 9) % 12 := ⟨_, rfl⟩
  obtain ⟨dayOfYear, isDayOfYear⟩ : ∃ dayOfYear : Int,
    dayOfYear = (153 * fromMarch + 2) / 5 + day - 1 := ⟨_, rfl⟩
  obtain ⟨era, isEra⟩ : ∃ era : Int, era = year / 400 := ⟨_, rfl⟩
  obtain ⟨dayOfEra, isDayOfEra⟩ : ∃ dayOfEra : Int, dayOfEra = (year - era * 400) * 365 +
    (year - era * 400) / 4 - (year - era * 400) / 100 + dayOfYear := ⟨_, rfl⟩
  have inMonth := daysInMonth_le ofDate isMonth
  rw [← isFromMarch] at inMonth
  obtain ⟨inYear, isLast, foundMonth⟩ := monthFromMarch_eq isDayOfYear (by omega) (by omega)
  -- Counted from March, only a year that ends with a leap day has a day 365.
  have leap : dayOfYear = 365 → isLeap (year - era * 400 + 1) = true := by
    intro last
    obtain ⟨isFebruary, isLeapDay⟩ := isLast last
    obtain rfl : month = 2 := by omega
    have isLeapYear : isLeap ofDate = true := by
      by_contra common
      simp [daysInMonth, common] at isDay
      omega
    rw [isLeap_iff] at isLeapYear ⊢
    rw [if_pos (by decide)] at isYear
    omega
  obtain ⟨inEra, foundYear⟩ := yearOfEra_eq isDayOfEra (by omega) inYear leap
  have number : dayNumber ⟨ofDate, month, day⟩ + 719468 = era * 146097 + dayOfEra := by
    simp only [dayNumber, ← isYear, ← isFromMarch, ← isEra, ← isDayOfYear]
    omega
  have foundEra : (era * 146097 + dayOfEra) / 146097 = era := by omega
  have foundDay : dayOfEra - (365 * (year - era * 400) + (year - era * 400) / 4 -
      (year - era * 400) / 100) = dayOfYear := by
    omega
  have sameMonth : (if fromMarch < 10 then fromMarch + 3 else fromMarch - 9) = month := by
    split <;> omega
  simp only [ofDayNumber, number, foundEra, add_sub_cancel_left, foundYear, foundDay, foundMonth,
    sameMonth, Date.mk.injEq, Int.toNat_natCast, true_and]
  refine ⟨?_, by omega⟩
  rw [isYear]
  split <;> split <;> omega

end QueryProjection.Date
