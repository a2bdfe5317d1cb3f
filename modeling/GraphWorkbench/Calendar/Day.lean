/-!
Days of the calendar: lengths of months, and the number of a day in the one long row of days.
-/
namespace GraphWorkbench.Calendar

def isLeap (year : Nat) : Bool := year % 4 == 0 && (year % 100 != 0 || year % 400 == 0)

def daysInMonth (year month : Nat) : Nat :=
  if month = 2 then if isLeap year then 29 else 28
  else if month = 4 ∨ month = 6 ∨ month = 9 ∨ month = 11 then 30
  else 31

/-- Whether a month and a day of the month exist in a year. -/
def isDay (year month day : Nat) : Bool :=
  1 ≤ month && month ≤ 12 && 1 ≤ day && day ≤ daysInMonth year month

/-- The number of days before a year, the first day of the year one being day one. -/
def daysBeforeYear (year : Nat) : Nat :=
  let y := year - 1
  y * 365 + y / 4 - y / 100 + y / 400

def daysBeforeMonth (year month : Nat) : Nat :=
  (List.range (month - 1)).foldl (fun days m => days + daysInMonth year (m + 1)) 0

/-- The number of a day, the first day of the year one being day one. -/
def dayNumber (year month day : Nat) : Nat := daysBeforeYear year + daysBeforeMonth year month + day

/-- The month and the day of the month of a day of a year, counted from zero. -/
def monthAndDay (year : Nat) : Nat → Nat → Nat → Nat × Nat
  | 0, month, rest => (month, rest + 1)
  | fuel + 1, month, rest =>
    if rest < daysInMonth year month then (month, rest + 1)
    else monthAndDay year fuel (month + 1) (rest - daysInMonth year month)

/-- The year, month and day of a day number. -/
def ofDayNumber (n : Nat) : Nat × Nat × Nat :=
  let d := n - 1
  let guess := d / 366 + 1
  -- a year has at most 366 days, so the guess is low by at most one per four centuries and a bit
  let year := ((List.range (d / 366 / 365 + 3)).foldl
    (fun y _ => if daysBeforeYear (y + 1) ≤ d then y + 1 else y) guess)
  let (month, day) := monthAndDay year 12 1 (d - daysBeforeYear year)
  (year, month, day)

end GraphWorkbench.Calendar
