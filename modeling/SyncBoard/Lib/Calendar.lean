import Mathlib.Order.Lattice

/-!
# The Gregorian calendar

The date of a day and the day of a date, in the proleptic Gregorian calendar, where day 0
is 1970-01-01. Years are counted from March, so that the leap day is the last of its
year; 400 of them have 146097 days. The day of a date may lie beyond the end of its
month, and then names a day of the next.
-/

namespace Calendar

structure CivilDate where
  year : Int
  month : Int
  day : Int
  deriving DecidableEq, Repr

/-- Days before the first of a month, counted from March (0) on. -/
def daysBefore (month : Int) : Int :=
  (153 * month + 2) / 5

/-- The day of a date. -/
def dayNumber (date : CivilDate) : Int :=
  let year := if date.month ≤ 2 then date.year - 1 else date.year
  let month := if date.month ≤ 2 then date.month + 9 else date.month - 3
  365 * year + year / 4 - year / 100 + year / 400 + daysBefore month + date.day - 719469

/-- The years from March on before a day of a cycle of 400 years. -/
def yearOfCycle (day : Int) : Int :=
  let century := min (day / 36524) 3
  let inCentury := day - 36524 * century
  let leapCycle := inCentury / 1461
  let inLeapCycle := inCentury % 1461
  100 * century + 4 * leapCycle + min (inLeapCycle / 365) 3

/-- The days of the year from March on before a day of a cycle of 400 years. -/
def dayOfYear (day : Int) : Int :=
  let year := yearOfCycle day
  day - (365 * year + year / 4 - year / 100)

/-- The date of a day. -/
def civilDate (n : Int) : CivilDate :=
  let shifted := n + 719468
  let year := 400 * (shifted / 146097) + yearOfCycle (shifted % 146097)
  let day := dayOfYear (shifted % 146097)
  let month := (5 * day + 2) / 153
  { year := if month < 10 then year else year + 1
    month := if month < 10 then month + 3 else month - 9
    day := day - daysBefore month + 1 }

/-- A day of a cycle by centuries, leap cycles, years and days. -/
theorem exists_split {day : Int} (h : 0 ≤ day) (h' : day < 146097) :
    ∃ century leapCycle year rest : Int, day = 36524 * century + 1461 * leapCycle + 365 * year + rest ∧
      yearOfCycle day = 100 * century + 4 * leapCycle + year ∧ 0 ≤ century ∧ century ≤ 3 ∧
      0 ≤ leapCycle ∧ leapCycle ≤ 24 ∧ 0 ≤ year ∧ year ≤ 3 ∧ 0 ≤ rest ∧ rest ≤ 365 := by
  refine ⟨min (day / 36524) 3, (day - 36524 * min (day / 36524) 3) / 1461,
    min ((day - 36524 * min (day / 36524) 3) % 1461 / 365) 3,
    (day - 36524 * min (day / 36524) 3) % 1461 -
      365 * min ((day - 36524 * min (day / 36524) 3) % 1461 / 365) 3, ?_, rfl, ?_⟩
  · omega
  · omega

theorem yearOfCycle_bounds {day : Int} (h : 0 ≤ day) (h' : day < 146097) :
    0 ≤ yearOfCycle day ∧ yearOfCycle day < 400 := by
  obtain ⟨century, leapCycle, year, rest, -, hyear, hbounds⟩ := exists_split h h'
  omega

theorem dayOfYear_bounds {day : Int} (h : 0 ≤ day) (h' : day < 146097) :
    0 ≤ dayOfYear day ∧ dayOfYear day ≤ 365 := by
  obtain ⟨century, leapCycle, year, rest, hday, hyear, hbounds⟩ := exists_split h h'
  have hfour : yearOfCycle day / 4 = 25 * century + leapCycle := by omega
  have hhundred : yearOfCycle day / 100 = century := by omega
  simp only [dayOfYear, hfour, hhundred]
  omega

theorem month_bounds {day : Int} (h : 0 ≤ day) (h' : day ≤ 365) :
    0 ≤ (5 * day + 2) / 153 ∧ (5 * day + 2) / 153 ≤ 11 ∧
      0 ≤ day - daysBefore ((5 * day + 2) / 153) ∧
        day - daysBefore ((5 * day + 2) / 153) ≤ 30 := by
  simp only [daysBefore]
  omega

theorem civilDate_bounds (n : Int) :
    1 ≤ (civilDate n).month ∧ (civilDate n).month ≤ 12 ∧
      1 ≤ (civilDate n).day ∧ (civilDate n).day ≤ 31 := by
  obtain ⟨h, h'⟩ := dayOfYear_bounds (Int.emod_nonneg (n + 719468) (by decide : (146097 : Int) ≠ 0))
    (Int.emod_lt_of_pos (n + 719468) (by decide))
  have hmonth := month_bounds h h'
  simp only [civilDate]
  split <;> omega

/-- A day is the day of its date. -/
theorem dayNumber_civilDate (n : Int) : dayNumber (civilDate n) = n := by
  have hnonneg := Int.emod_nonneg (n + 719468) (by decide : (146097 : Int) ≠ 0)
  have hlt := Int.emod_lt_of_pos (n + 719468) (by decide : (0 : Int) < 146097)
  obtain ⟨hyear, hyear'⟩ := yearOfCycle_bounds hnonneg hlt
  obtain ⟨hday, hday'⟩ := dayOfYear_bounds hnonneg hlt
  obtain ⟨hmonth, hmonth', -, -⟩ := month_bounds hday hday'
  have hsplit := Int.emod_add_mul_ediv (n + 719468) 146097
  generalize hcycle : (n + 719468) / 146097 = cycle at *
  generalize hrest : (n + 719468) % 146097 = rest at *
  have hdayOfYear : dayOfYear rest =
      rest - (365 * yearOfCycle rest + yearOfCycle rest / 4 - yearOfCycle rest / 100) := rfl
  simp only [dayNumber, civilDate, hcycle, hrest]
  generalize yearOfCycle rest = year at *
  generalize dayOfYear rest = day at *
  generalize hm : (5 * day + 2) / 153 = month at *
  have hfour : (400 * cycle + year) / 4 = 100 * cycle + year / 4 := by omega
  have hhundred : (400 * cycle + year) / 100 = 4 * cycle + year / 100 := by omega
  have hcycles : (400 * cycle + year) / 400 = cycle := by omega
  by_cases hspring : month < 10
  · have hm' : ¬ month + 3 ≤ 2 := by omega
    simp only [hspring, if_true, hm', if_false, hfour, hhundred, hcycles, Int.add_sub_cancel]
    omega
  · have hm' : month - 9 ≤ 2 := by omega
    simp only [hspring, if_false, hm', if_true, hfour, hhundred, hcycles, Int.add_sub_cancel,
      Int.sub_add_cancel]
    omega

end Calendar
