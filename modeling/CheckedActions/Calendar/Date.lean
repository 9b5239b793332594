import CheckedActions.Number.Natural

/-!
Dates of the proleptic Gregorian calendar, years 1 to 9999. Day 1 is 0001-01-01; `dayNumber` counts
days from there, and `ofDayNumber` finds the date of a day again.
-/

namespace CheckedActions

structure Date where
  year : Nat
  month : Nat
  day : Nat
  deriving DecidableEq, Inhabited

namespace Date

def minYear : Nat := 1
def maxYear : Nat := 9999

def isLeap (year : Nat) : Bool :=
  year % 4 = 0 && (year % 100 ≠ 0 || year % 400 = 0)

def yearLength (year : Nat) : Nat := if isLeap year then 366 else 365

/-- The lengths of the months in order. -/
def monthLengths (leap : Bool) : List Nat :=
  [31, if leap then 29 else 28, 31, 30, 31, 30, 31, 31, 30, 31, 30, 31]

def monthLength (year month : Nat) : Nat :=
  ((monthLengths (isLeap year))[month - 1]?).getD 0

/-- A date that exists, in a year the calendar covers. -/
def Valid (d : Date) : Prop :=
  minYear ≤ d.year ∧ d.year ≤ maxYear ∧ 1 ≤ d.month ∧ d.month ≤ 12 ∧
    1 ≤ d.day ∧ d.day ≤ monthLength d.year d.month

instance (d : Date) : Decidable d.Valid := by unfold Valid; infer_instance

/-- The days before 1 January of a year. -/
def daysBeforeYear (year : Nat) : Nat :=
  let y := year - 1
  365 * y + y / 4 - y / 100 + y / 400

/-- The days of a year before a month. -/
def daysBeforeMonth (year month : Nat) : Nat :=
  total ((monthLengths (isLeap year)).take (month - 1))

def dayNumber (d : Date) : Nat :=
  daysBeforeYear d.year + daysBeforeMonth d.year d.month + d.day

/-- The month and the day of the month, from the days of the year left and the months left. -/
def findMonth : List Nat → Nat → Nat → Nat × Nat
  | [], month, rest => (month, rest + 1)
  | length :: lengths, month, rest =>
    if rest < length then (month, rest + 1) else findMonth lengths (month + 1) (rest - length)

/-- The date of a day number: whole cycles of 400, 100 and 4 years first, then years, the last day
of a cycle belonging to its last year. -/
def ofDayNumber (n : Nat) : Date :=
  let d := n - 1
  let n400 := d / 146097
  let d := d % 146097
  let n100 := min (d / 36524) 3
  let d := d - 36524 * n100
  let n4 := d / 1461
  let d := d % 1461
  let n1 := min (d / 365) 3
  let rest := d - 365 * n1
  let year := 400 * n400 + 100 * n100 + 4 * n4 + n1 + 1
  let (month, day) := findMonth (monthLengths (isLeap year)) 1 rest
  ⟨year, month, day⟩

/-- The last day the calendar covers. -/
def lastDay : Nat := daysBeforeYear (maxYear + 1)

/-- The day of the week, Monday being 0. -/
def weekday (d : Date) : Nat := (d.dayNumber + 6) % 7

/-- The day number of the Monday of week 1, the week with the year's first Thursday, counted from
a week before day 1 so that it is never negative. -/
def weekOneMonday (year : Nat) : Nat :=
  let first := (⟨year, 1, 1⟩ : Date)
  let monday := first.dayNumber + 7 - first.weekday
  if 3 < first.weekday then monday + 7 else monday

/-- Whether a year has a week 53. -/
def hasLongWeekYear (year : Nat) : Bool :=
  let w := (⟨year, 1, 1⟩ : Date).weekday
  w = 3 || (w = 2 && isLeap year)

/-- The date of a day in a week of a week-numbered year. -/
def ofWeek? (year week day : Nat) : Option Date :=
  if 1 ≤ year ∧ 1 ≤ week ∧ (week ≤ 52 ∨ week = 53 ∧ hasLongWeekYear year) ∧ 1 ≤ day ∧ day ≤ 7 then
    let n := weekOneMonday year + 7 * (week - 1) + (day - 1)
    if 7 < n ∧ n ≤ lastDay + 7 then some (ofDayNumber (n - 7)) else none
  else none

/-- The date if it exists. -/
def of? (year month day : Nat) : Option Date :=
  let d : Date := ⟨year, month, day⟩
  if d.Valid then some d else none

end Date
end CheckedActions
