import Mathlib.Data.Nat.Find
import Mathlib.Tactic.Common

/-!
# Dates of the Gregorian calendar

Days are counted from January 1 of year 1; years and days before it are negative.
-/

namespace Rustcast

def isLeap (year : Int) : Bool := year % 4 == 0 && (year % 100 != 0 || year % 400 == 0)

def leapDay (leap : Bool) : Nat := if leap then 1 else 0

/-- The days of a year before a month, from 1 to 12. -/
def daysBeforeMonth (leap : Bool) (month : Nat) : Nat :=
  [0, 31, 59, 90, 120, 151, 181, 212, 243, 273, 304, 334].getD (month - 1) 0 +
    if 2 < month then leapDay leap else 0

def monthLength (leap : Bool) (month : Nat) : Nat :=
  if month = 2 then 28 + leapDay leap
  else [31, 28, 31, 30, 31, 30, 31, 31, 30, 31, 30, 31].getD (month - 1) 0

/-- The days from January 1 of year 1 to January 1 of a year. -/
def daysBeforeYear (year : Int) : Int :=
  365 * (year - 1) + (year - 1) / 4 - (year - 1) / 100 + (year - 1) / 400

/-- A day of the calendar, with its number `Date.days`. -/
structure Date where
  year : Int
  month : Nat
  day : Nat
  month_valid : 1 ≤ month ∧ month ≤ 12
  day_valid : 1 ≤ day ∧ day ≤ monthLength (isLeap year) month

namespace Date

def yearDay (d : Date) : Nat := daysBeforeMonth (isLeap d.year) d.month + (d.day - 1)

def days (d : Date) : Int := daysBeforeYear d.year + d.yearDay

end Date

/-! ## The order of dates -/

theorem daysBeforeYear_succ (year : Int) :
    daysBeforeYear (year + 1) = daysBeforeYear year + 365 + leapDay (isLeap year) := by
  have hleap : (leapDay (isLeap year) : Int) = year / 4 - (year - 1) / 4 - (year / 100 - (year - 1) / 100) +
        (year / 400 - (year - 1) / 400) := by
    -- a quotient grows by one exactly at the multiples
    have h4 : year / 4 - (year - 1) / 4 = if year % 4 = 0 then 1 else 0 := by split <;> omega
    have h100 : year / 100 - (year - 1) / 100 = if year % 100 = 0 then 1 else 0 := by split <;> omega
    have h400 : year / 400 - (year - 1) / 400 = if year % 400 = 0 then 1 else 0 := by split <;> omega
    rw [h4, h100, h400]
    by_cases hfour : year % 4 = 0
    · by_cases hcentury : year % 100 = 0
      · by_cases hcycle : year % 400 = 0
        · simp [leapDay, isLeap, hfour, hcentury, hcycle]
        · simp [leapDay, isLeap, hfour, hcentury, hcycle]
      · have hcycle : year % 400 ≠ 0 := by omega
        simp [leapDay, isLeap, hfour, hcentury, hcycle]
    · have hcentury : year % 100 ≠ 0 := by omega
      have hcycle : year % 400 ≠ 0 := by omega
      simp [leapDay, isLeap, hfour, hcentury, hcycle]
  unfold daysBeforeYear
  omega

theorem daysBeforeYear_mono {year year' : Int} (h : year ≤ year') :
    daysBeforeYear year ≤ daysBeforeYear year' := by
  unfold daysBeforeYear
  omega

theorem daysBeforeMonth_succ (leap : Bool) : ∀ month < 12, 1 ≤ month →
    daysBeforeMonth leap (month + 1) = daysBeforeMonth leap month + monthLength leap month := by
  cases leap <;> decide

variable {month yearDay : Nat}

theorem daysBeforeMonth_add_le (leap : Bool) {month' : Nat} (hpos : 1 ≤ month) (hle : month' ≤ 12)
    (h : month < month') :
    daysBeforeMonth leap month + monthLength leap month ≤ daysBeforeMonth leap month' := by
  induction month', h using Nat.le_induction with
  | base => exact Nat.le_of_eq (daysBeforeMonth_succ leap month hle hpos).symm
  | succ later hlater ih =>
    have hnext := daysBeforeMonth_succ leap later (by omega) (by omega)
    omega

theorem daysBeforeMonth_add_le_year (leap : Bool) : ∀ month ≤ 12, 1 ≤ month →
    daysBeforeMonth leap month + monthLength leap month ≤ 365 + leapDay leap := by
  cases leap <;> decide

namespace Date

variable {d d' : Date}

theorem yearDay_lt (d : Date) : d.yearDay < 365 + leapDay (isLeap d.year) := by
  have hmonth := daysBeforeMonth_add_le_year (isLeap d.year) d.month d.month_valid.2 d.month_valid.1
  have hday := d.day_valid
  unfold yearDay
  omega

theorem days_lt_of_year (h : d.year < d'.year) : d.days < d'.days := by
  have hday := d.yearDay_lt
  have hnext := daysBeforeYear_succ d.year
  have hmono : daysBeforeYear (d.year + 1) ≤ daysBeforeYear d'.year := daysBeforeYear_mono h
  unfold days
  omega

theorem days_lt_of_month (hyear : d.year = d'.year) (h : d.month < d'.month) : d.days < d'.days := by
  have hmonth := daysBeforeMonth_add_le (isLeap d.year) d.month_valid.1 d'.month_valid.2 h
  have hday := d.day_valid
  unfold days yearDay
  rw [← hyear]
  omega

theorem days_lt_of_day (hyear : d.year = d'.year) (hmonth : d.month = d'.month) (h : d.day < d'.day) :
    d.days < d'.days := by
  have hday := d.day_valid
  unfold days yearDay
  rw [← hyear, ← hmonth]
  omega

def Before (d d' : Date) : Prop :=
  d.year < d'.year ∨ d.year = d'.year ∧ (d.month < d'.month ∨ d.month = d'.month ∧ d.day < d'.day)

/-- A date that comes later by year, month and day has a larger number. -/
theorem days_lt (h : d.Before d') : d.days < d'.days := by
  rcases h with hyear | ⟨hyear, hmonth | ⟨hmonth, hday⟩⟩
  · exact days_lt_of_year hyear
  · exact days_lt_of_month hyear hmonth
  · exact days_lt_of_day hyear hmonth hday

theorem before_or (d d' : Date) : d.Before d' ∨ d'.Before d ∨
    (d.year = d'.year ∧ d.month = d'.month ∧ d.day = d'.day) := by
  unfold Before
  omega

theorem days_eq (h : d.year = d'.year ∧ d.month = d'.month ∧ d.day = d'.day) : d.days = d'.days := by
  unfold days yearDay
  rw [h.1, h.2.1, h.2.2]

end Date

/-! ## The date of a day -/

/-- The year of a day and the days of the year before it. -/
def yearOfDays (days : Int) : Int × Nat :=
  -- cycles of 400, 100, 4 years; the last century and the last year of a cycle are one day longer
  let day400 := (days % 146097).toNat
  let n100 := min (day400 / 36524) 3
  let day100 := day400 - 36524 * n100
  let n4 := day100 / 1461
  let day4 := day100 % 1461
  let n1 := min (day4 / 365) 3
  (400 * (days / 146097) + 100 * n100 + 4 * n4 + n1 + 1, day4 - 365 * n1)

def monthOfDay (leap : Bool) (yearDay : Nat) : Nat :=
  1 + [2, 3, 4, 5, 6, 7, 8, 9, 10, 11, 12].countP fun month =>
    decide (daysBeforeMonth leap month ≤ yearDay)

theorem yearOfDays_cases (days : Int) : ∃ n100 n4 n1 yearDay : Nat, n100 ≤ 3 ∧ n4 ≤ 24 ∧ n1 ≤ 3 ∧
    yearDay ≤ 365 ∧ (yearDay = 365 → n1 = 3 ∧ (n4 = 24 → n100 = 3)) ∧
    yearOfDays days = (400 * (days / 146097) + 100 * n100 + 4 * n4 + n1 + 1, yearDay) ∧
    days = 146097 * (days / 146097) + 36524 * n100 + 1461 * n4 + 365 * n1 + yearDay := by
  have hpositive : 0 ≤ days % 146097 ∧ days % 146097 < 146097 := by omega
  have hnat : ((days % 146097).toNat : Int) = days % 146097 := Int.toNat_of_nonneg hpositive.1
  unfold yearOfDays
  dsimp only
  generalize (days % 146097).toNat = day400 at hnat ⊢
  -- the century in the cycle
  have h100 : min (day400 / 36524) 3 ≤ 3 ∧ 36524 * min (day400 / 36524) 3 ≤ day400 ∧
      day400 < 36524 * min (day400 / 36524) 3 + 36524 + if min (day400 / 36524) 3 = 3 then 1 else 0 := by
    split <;> omega
  generalize min (day400 / 36524) 3 = n100 at h100 ⊢
  obtain ⟨hn100, hle100, hlt100⟩ := h100
  obtain ⟨day100, rfl⟩ := Nat.exists_eq_add_of_le hle100
  rw [Nat.add_sub_cancel_left]
  have hday100 : day100 ≤ 36524 ∧ (day100 = 36524 → n100 = 3) := by
    split at hlt100 <;> omega
  -- the four years in the century
  have hn4 : day100 / 1461 ≤ 24 := by omega
  have hday4 : day100 % 1461 < 1461 ∧ day100 = 1461 * (day100 / 1461) + day100 % 1461 := by omega
  generalize day100 / 1461 = n4 at hn4 hday4 ⊢
  generalize day100 % 1461 = day4 at hday4 ⊢
  -- the year in the four
  have h1 : min (day4 / 365) 3 ≤ 3 ∧ 365 * min (day4 / 365) 3 ≤ day4 ∧
      day4 < 365 * min (day4 / 365) 3 + 365 + if min (day4 / 365) 3 = 3 then 1 else 0 := by
    split <;> omega
  generalize min (day4 / 365) 3 = n1 at h1 ⊢
  obtain ⟨hn1, hle1, hlt1⟩ := h1
  obtain ⟨yearDay, rfl⟩ := Nat.exists_eq_add_of_le hle1
  rw [Nat.add_sub_cancel_left]
  refine ⟨n100, n4, n1, yearDay, hn100, hn4, hn1, ?_, ?_, rfl, ?_⟩
  · split at hlt1 <;> omega
  · split at hlt1 <;> omega
  · omega

theorem yearOfDays_spec (days : Int) :
    days = daysBeforeYear (yearOfDays days).1 + (yearOfDays days).2 ∧
      (yearOfDays days).2 < 365 + leapDay (isLeap (yearOfDays days).1) := by
  obtain ⟨n100, n4, n1, yearDay, h100, h4, h1, hday, hlast, hyear, hdays⟩ := yearOfDays_cases days
  rw [hyear]
  refine ⟨?_, ?_⟩
  · generalize days / 146097 = n400 at hdays
    rw [daysBeforeYear]
    omega
  · show yearDay < 365 + leapDay (isLeap (400 * (days / 146097) + 100 * n100 + 4 * n4 + n1 + 1))
    by_cases hlong : yearDay = 365
    · obtain ⟨hn1, hn4⟩ := hlast hlong
      -- the last day of a leap year
      have hleap : isLeap (400 * (days / 146097) + 100 * n100 + 4 * n4 + n1 + 1) = true := by
        have hfour : (400 * (days / 146097) + 100 * n100 + 4 * n4 + n1 + 1) % 4 = 0 := by omega
        by_cases hcentury : (400 * (days / 146097) + 100 * n100 + 4 * n4 + n1 + 1) % 100 = 0
        · have hcycle : (400 * (days / 146097) + 100 * n100 + 4 * n4 + n1 + 1) % 400 = 0 := by omega
          simp [isLeap, hfour, hcycle]
        · simp [isLeap, hfour, hcentury]
      rw [hleap, hlong]
      decide
    · omega

theorem daysBeforeMonth_december (leap : Bool) :
    daysBeforeMonth leap 12 + monthLength leap 12 = 365 + leapDay leap := by
  cases leap <;> rfl

/-- Every day of a year is in a month: the last one that begins before it. -/
theorem exists_month (leap : Bool) (h : yearDay < 365 + leapDay leap) :
    ∃ month, (1 ≤ month ∧ month ≤ 12) ∧ daysBeforeMonth leap month ≤ yearDay ∧
      yearDay < daysBeforeMonth leap month + monthLength leap month := by
  have hjanuary : daysBeforeMonth leap 1 ≤ yearDay := Nat.zero_le yearDay
  let month := Nat.findGreatest (fun m => daysBeforeMonth leap m ≤ yearDay) 12
  have hle : month ≤ 12 := Nat.findGreatest_le 12
  have hpos : 1 ≤ month := Nat.le_findGreatest (by decide) hjanuary
  have hbegun : daysBeforeMonth leap month ≤ yearDay :=
    Nat.findGreatest_spec (P := fun m => daysBeforeMonth leap m ≤ yearDay) (by decide) hjanuary
  refine ⟨month, ⟨hpos, hle⟩, hbegun, ?_⟩
  rcases Nat.lt_or_eq_of_le hle with hlt | htwelve
  · have hnext : ¬ daysBeforeMonth leap (month + 1) ≤ yearDay :=
      Nat.findGreatest_is_greatest (P := fun m => daysBeforeMonth leap m ≤ yearDay)
        (Nat.lt_succ_self month) hlt
    rw [daysBeforeMonth_succ leap month hlt hpos] at hnext
    omega
  · rw [htwelve, daysBeforeMonth_december]
    exact h

/-- The months up to that one have begun, and the others have not. -/
theorem monthOfDay_eq {leap : Bool} (hvalid : 1 ≤ month ∧ month ≤ 12)
    (hbegun : daysBeforeMonth leap month ≤ yearDay)
    (hend : yearDay < daysBeforeMonth leap month + monthLength leap month) :
    monthOfDay leap yearDay = month := by
  have hcount : ∀ k ≤ 12, 1 ≤ k →
      1 + [2, 3, 4, 5, 6, 7, 8, 9, 10, 11, 12].countP (fun m => decide (m ≤ k)) = k := by decide
  have hrange : ∀ m ∈ [2, 3, 4, 5, 6, 7, 8, 9, 10, 11, 12], 1 ≤ m ∧ m ≤ 12 := by decide
  have hsame : ∀ m ∈ [2, 3, 4, 5, 6, 7, 8, 9, 10, 11, 12],
      (decide (daysBeforeMonth leap m ≤ yearDay) = true ↔ decide (m ≤ month) = true) := by
    intro m hm
    obtain ⟨hpos, hle⟩ := hrange m hm
    rw [decide_eq_true_eq, decide_eq_true_eq]
    constructor
    · by_contra hlater
      have hnext := daysBeforeMonth_add_le leap hvalid.1 hle (show month < m by omega)
      omega
    · intro hm
      rcases Nat.lt_or_eq_of_le hm with hlt | rfl
      · have hnext := daysBeforeMonth_add_le leap hpos hvalid.2 hlt
        omega
      · exact hbegun
  rw [monthOfDay, List.countP_congr hsame]
  exact hcount month hvalid.2 hvalid.1

theorem monthOfDay_spec (leap : Bool) (h : yearDay < 365 + leapDay leap) :
    1 ≤ monthOfDay leap yearDay ∧ monthOfDay leap yearDay ≤ 12 ∧
      daysBeforeMonth leap (monthOfDay leap yearDay) ≤ yearDay ∧
      yearDay - daysBeforeMonth leap (monthOfDay leap yearDay) + 1 ≤
        monthLength leap (monthOfDay leap yearDay) := by
  obtain ⟨month, hvalid, hbegun, hend⟩ := exists_month leap h
  rw [monthOfDay_eq hvalid hbegun hend]
  exact ⟨hvalid.1, hvalid.2, hbegun, by omega⟩

/-- The date with a given number. -/
def dateOfDays (days : Int) : Date :=
  have hmonth := monthOfDay_spec (isLeap (yearOfDays days).1) (yearOfDays_spec days).2
  { year := (yearOfDays days).1
    month := monthOfDay (isLeap (yearOfDays days).1) (yearOfDays days).2
    day := (yearOfDays days).2 -
      daysBeforeMonth (isLeap (yearOfDays days).1)
        (monthOfDay (isLeap (yearOfDays days).1) (yearOfDays days).2) + 1
    month_valid := ⟨hmonth.1, hmonth.2.1⟩
    day_valid := ⟨Nat.le_add_left _ _, hmonth.2.2.2⟩ }

theorem days_dateOfDays (days : Int) : (dateOfDays days).days = days := by
  obtain ⟨hdays, hday⟩ := yearOfDays_spec days
  have hmonth := (monthOfDay_spec (isLeap (yearOfDays days).1) hday).2.2.1
  have hyearDay : (dateOfDays days).yearDay = (yearOfDays days).2 := by
    show daysBeforeMonth (isLeap (yearOfDays days).1) (monthOfDay _ _) +
      (_ - daysBeforeMonth _ _ + 1 - 1) = _
    rw [Nat.add_sub_cancel, Nat.add_sub_cancel' hmonth]
  rw [Date.days, hyearDay]
  exact hdays.symm

end Rustcast
