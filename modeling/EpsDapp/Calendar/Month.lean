import Mathlib.Algebra.Order.SuccPred
import Mathlib.Data.Int.ConditionallyCompleteOrder
import Mathlib.Data.Int.SuccPred
import Mathlib.Tactic.SplitIfs

/-!
# Calendar months of UTC instants

An instant is a number of milliseconds since 1970-01-01T00:00Z, as in a
JavaScript `Date`. Day, month and year are read off it as ECMAScript does, and
`setMonth` puts the day of the month back on the first of the month it is given:
a day the target month does not have carries over into the month after it.
-/

set_option autoImplicit false

namespace EpsDapp

namespace Calendar

/-- Milliseconds since the epoch. -/
abbrev Instant := ℤ

/-- Milliseconds in a day. -/
def msPerDay : ℤ := 86400000

/-- The day number of January 1 of the year `y`. -/
def dayFromYear (y : ℤ) : ℤ :=
  365 * (y - 1970) + (y - 1969) / 4 - (y - 1901) / 100 + (y - 1601) / 400

/-- Whether February of the year `y` has 29 days. -/
def inLeapYear (y : ℤ) : Bool :=
  (y % 4 == 0 && y % 100 != 0) || y % 400 == 0

/-- The year a day number falls in: the last one whose January 1 is not after
it. The mean length of a year gives it up to one. -/
def yearFromDay (d : ℤ) : ℤ :=
  let y := 1970 + 400 * d / 146097
  if dayFromYear (y + 1) ≤ d then y + 1 else if d < dayFromYear y then y - 1 else y

/-- The day of the year on which the month `m`, counted from 0, begins. -/
def monthOffset (leap : Bool) (m : ℤ) : ℤ :=
  let l : ℤ := if leap then 1 else 0
  if m ≤ 0 then 0
  else if m = 1 then 31
  else if m = 2 then 59 + l
  else if m = 3 then 90 + l
  else if m = 4 then 120 + l
  else if m = 5 then 151 + l
  else if m = 6 then 181 + l
  else if m = 7 then 212 + l
  else if m = 8 then 243 + l
  else if m = 9 then 273 + l
  else if m = 10 then 304 + l
  else 334 + l

/-- The day number of the first of a month, the months counted from January of
the year 0. -/
def monthStart (n : ℤ) : ℤ :=
  dayFromYear (n / 12) + monthOffset (inLeapYear (n / 12)) (n % 12)

/-- The month, counted from 0, of the day `d` of a year. -/
def monthFromDayInYear (leap : Bool) (d : ℤ) : ℤ :=
  if d < monthOffset leap 1 then 0
  else if d < monthOffset leap 2 then 1
  else if d < monthOffset leap 3 then 2
  else if d < monthOffset leap 4 then 3
  else if d < monthOffset leap 5 then 4
  else if d < monthOffset leap 6 then 5
  else if d < monthOffset leap 7 then 6
  else if d < monthOffset leap 8 then 7
  else if d < monthOffset leap 9 then 8
  else if d < monthOffset leap 10 then 9
  else if d < monthOffset leap 11 then 10
  else 11

/-- The month an instant falls in, counted from January of the year 0. -/
def monthIndex (t : Instant) : ℤ :=
  let d := t / msPerDay
  let y := yearFromDay d
  12 * y + monthFromDayInYear (inLeapYear y) (d - dayFromYear y)

/-- `setMonth` to the month `n`: the same day of that month, counted on past its
end if need be, at the same time of day. -/
def setMonthIndex (t : Instant) (n : ℤ) : Instant :=
  msPerDay * (monthStart n + (t / msPerDay - monthStart (monthIndex t))) + t % msPerDay

/-- The instant `months` calendar months after `t`. -/
def addMonths (t : Instant) (months : ℤ) : Instant :=
  setMonthIndex t (monthIndex t + months)

/-- A year has 365 days at least. -/
theorem dayFromYear_succ (y : ℤ) : dayFromYear y + 365 ≤ dayFromYear (y + 1) := by
  simp only [dayFromYear]
  omega

theorem monthOffset_lt_succ : ∀ (leap : Bool) (m : Fin 11),
    monthOffset leap m < monthOffset leap (m + 1) := by decide

theorem monthOffset_december : ∀ leap : Bool, monthOffset leap 11 < 365 := by decide

/-- A month begins after the month before it. -/
theorem monthStart_lt_succ (n : ℤ) : monthStart n < monthStart (n + 1) := by
  rcases (by omega : n % 12 < 11 ∨ n % 12 = 11) with hm | hm
  · have hdiv : (n + 1) / 12 = n / 12 := by omega
    have hmod : (n + 1) % 12 = n % 12 + 1 := by omega
    obtain ⟨m, hnat⟩ := Int.eq_ofNat_of_zero_le (by omega : 0 ≤ n % 12)
    have hlt := monthOffset_lt_succ (inLeapYear (n / 12)) ⟨m, by omega⟩
    rw [monthStart, monthStart, hdiv, hmod, hnat]
    exact Int.add_lt_add_left hlt _
  · have hdiv : (n + 1) / 12 = n / 12 + 1 := by omega
    have hmod : (n + 1) % 12 = 0 := by omega
    have hyear := dayFromYear_succ (n / 12)
    have hdecember := monthOffset_december (inLeapYear (n / 12))
    have hjanuary : monthOffset (inLeapYear (n / 12 + 1)) 0 = 0 := rfl
    rw [monthStart, monthStart, hdiv, hmod, hm, hjanuary]
    omega

theorem monthStart_strictMono : StrictMono monthStart :=
  strictMono_int_of_lt_succ monthStart_lt_succ

/-- The year of a day begins no later than the day, and the next one after it. -/
theorem yearFromDay_spec (d : ℤ) :
    dayFromYear (yearFromDay d) ≤ d ∧ d < dayFromYear (yearFromDay d + 1) := by
  simp only [yearFromDay]
  split_ifs with hnext hthis
  · simp only [dayFromYear] at *
    omega
  · rw [Int.sub_add_cancel]
    refine ⟨?_, hthis⟩
    simp only [dayFromYear] at *
    omega
  · simp only [dayFromYear] at *
    omega

/-- The month of a day of the year begins no later than the day, and the next one after it. -/
theorem monthFromDayInYear_spec : ∀ (leap : Bool) (d : Fin 366),
    let m := monthFromDayInYear leap (d : ℕ)
    0 ≤ m ∧ m ≤ 11 ∧ monthOffset leap m ≤ (d : ℕ) ∧
      (m < 11 → (d : ℕ) < monthOffset leap (m + 1)) := by decide +kernel

/-- The month of an instant begins no later than its day, and the next one after it. -/
theorem monthIndex_spec (t : ℤ) :
    monthStart (monthIndex t) ≤ t / msPerDay ∧ t / msPerDay < monthStart (monthIndex t + 1) := by
  obtain ⟨hle, hlt⟩ := yearFromDay_spec (t / msPerDay)
  generalize hy : yearFromDay (t / msPerDay) = y at hle hlt
  have hyear : dayFromYear (y + 1) ≤ dayFromYear y + 366 := by
    simp only [dayFromYear]
    omega
  obtain ⟨d, hd⟩ := Int.eq_ofNat_of_zero_le (Int.sub_nonneg_of_le hle)
  have hmonth : monthIndex t = 12 * y + monthFromDayInYear (inLeapYear y) d := by
    rw [monthIndex, hy, hd]
  obtain ⟨h0, h11, hbegins, hends⟩ := monthFromDayInYear_spec (inLeapYear y) ⟨d, by omega⟩
  simp only at h0 h11 hbegins hends
  generalize monthFromDayInYear (inLeapYear y) d = m at hmonth h0 h11 hbegins hends
  have hdiv : (12 * y + m) / 12 = y := by omega
  have hmod : (12 * y + m) % 12 = m := by omega
  rw [hmonth, monthStart, monthStart, hdiv, hmod]
  refine ⟨by omega, ?_⟩
  rcases (by omega : m < 11 ∨ m = 11) with hm | hm
  · have hdiv' : (12 * y + m + 1) / 12 = y := by omega
    have hmod' : (12 * y + m + 1) % 12 = m + 1 := by omega
    have hnext := hends hm
    rw [hdiv', hmod']
    omega
  · have hdiv' : (12 * y + m + 1) / 12 = y + 1 := by omega
    have hmod' : (12 * y + m + 1) % 12 = 0 := by omega
    have hjanuary : monthOffset (inLeapYear (y + 1)) 0 = 0 := rfl
    rw [hdiv', hmod', hjanuary]
    omega

/-- The month of an instant is the one its day is in. -/
theorem monthIndex_eq_iff (t : ℤ) (n : ℤ) :
    monthIndex t = n ↔ monthStart n ≤ t / msPerDay ∧ t / msPerDay < monthStart (n + 1) := by
  have hspec := monthIndex_spec t
  constructor
  · rintro rfl
    exact hspec
  · rintro ⟨hle, hlt⟩
    have hbefore := monthStart_strictMono.lt_iff_lt.1 (hle.trans_lt hspec.2)
    have hafter := monthStart_strictMono.lt_iff_lt.1 (hspec.1.trans_lt hlt)
    omega

theorem monthIndex_mono {s t : ℤ} (h : s ≤ t) : monthIndex s ≤ monthIndex t := by
  have hday : s / msPerDay ≤ t / msPerDay := Int.ediv_le_ediv (by decide) h
  have hlt := ((monthIndex_spec s).1.trans hday).trans_lt (monthIndex_spec t).2
  exact Int.lt_add_one_iff.1 (monthStart_strictMono.lt_iff_lt.1 hlt)

/-- `date.getDate()` -/
def dayOfMonth (t : Instant) : ℤ := t / msPerDay - monthStart (monthIndex t) + 1

/-- The number of days of a month. -/
def daysInMonth (n : ℤ) : ℤ := monthStart (n + 1) - monthStart n

theorem addMonths_eq (t months : ℤ) :
    addMonths t months =
      t + msPerDay * (monthStart (monthIndex t + months) - monthStart (monthIndex t)) := by
  have hday := Int.mul_ediv_add_emod t msPerDay
  rw [addMonths, setMonthIndex]
  simp only [msPerDay] at hday ⊢
  change (_ : ℤ) = _
  omega

theorem addMonths_ediv (t months : ℤ) :
    addMonths t months / msPerDay = monthStart (monthIndex t + months) + (dayOfMonth t - 1) := by
  rw [addMonths_eq, Int.add_mul_ediv_left _ _ (by decide), dayOfMonth]
  change (_ : ℤ) = _
  omega

/-- Adding months comes to the month it is meant to exactly if that month has the day. -/
theorem monthIndex_addMonths_iff (t months : ℤ) :
    monthIndex (addMonths t months) = monthIndex t + months ↔
      dayOfMonth t ≤ daysInMonth (monthIndex t + months) := by
  have hday : 1 ≤ dayOfMonth t := by
    have hspec := (monthIndex_spec t).1
    rw [dayOfMonth]
    omega
  rw [monthIndex_eq_iff, addMonths_ediv, daysInMonth]
  omega

/-- Adding months to a later instant comes to no earlier one, if the month has the day of the
earlier one. -/
theorem addMonths_le_addMonths {s t : ℤ} {months : ℤ} (h : s ≤ t)
    (hday : dayOfMonth s ≤ daysInMonth (monthIndex s + months)) :
    addMonths s months ≤ addMonths t months := by
  rcases (monthIndex_mono h).eq_or_lt with hsame | hlt
  · rw [addMonths_eq, addMonths_eq, hsame]
    exact Int.add_le_add_right h _
  · -- The later one comes to a later month, which the earlier one does not reach.
    have hmonth := (monthIndex_addMonths_iff s months).2 hday
    have hspec := (monthIndex_spec (addMonths s months)).2
    have hbegins : monthStart (monthIndex s + months + 1) ≤ monthStart (monthIndex t + months) :=
      monthStart_strictMono.monotone (by omega)
    have hfirst : monthStart (monthIndex t + months) ≤ addMonths t months / msPerDay := by
      have hspec' := (monthIndex_spec t).1
      rw [addMonths_ediv, dayOfMonth]
      omega
    rw [hmonth] at hspec
    refine Int.not_lt.1 fun hgt => ?_
    have hle : addMonths t months / msPerDay ≤ addMonths s months / msPerDay :=
      Int.ediv_le_ediv (by decide) hgt.le
    exact absurd (hfirst.trans hle) (not_le.2 (hspec.trans_le hbegins))

/-- A later month is later. -/
theorem lt_addMonths (t : ℤ) {months : ℤ} (h : 0 < months) : t < addMonths t months := by
  have hlt : monthStart (monthIndex t) < monthStart (monthIndex t + months) :=
    monthStart_strictMono (by omega)
  have hday := Int.mul_ediv_add_emod t msPerDay
  rw [addMonths, setMonthIndex]
  simp only [msPerDay] at hday ⊢
  omega

-- 2026-01-31T12:00Z plus one month is 2026-03-03T12:00Z: February has no 31st.
example : addMonths 1769860800000 1 = 1772539200000 := by decide

end Calendar

end EpsDapp
