/-!
# The Gregorian calendar

Days are counted from the first of January 1970, and the calendar runs on in both directions, with
a year 0 and negative years.  `Date.dayNumber` counts the day of a date, and `Date.ofDayNumber`
finds the date of a day.
-/

namespace IlpConnector

/-- A day of the calendar. -/
structure Date where
  year : Int
  month : Nat
  day : Nat
deriving DecidableEq, Repr

namespace Date

def isLeapYear (year : Int) : Bool :=
  year % 4 == 0 && (year % 100 != 0 || year % 400 == 0)

/-- The days from the first of January of the year 1 to the start of a year. -/
def daysBeforeYear (year : Int) : Int :=
  let y := year - 1
  365 * y + y / 4 - y / 100 + y / 400

/-- The lengths of the months of a year. -/
def monthLengths (leap : Bool) : List Nat :=
  [31, if leap then 29 else 28, 31, 30, 31, 30, 31, 31, 30, 31, 30, 31]

def monthLength (year : Int) (month : Nat) : Nat :=
  (monthLengths (isLeapYear year)).getD (month - 1) 0

/-- The days from the start of a year to the start of one of its months. -/
def daysBeforeMonth (year : Int) (month : Nat) : Nat :=
  ((monthLengths (isLeapYear year)).take (month - 1)).foldl (· + ·) 0

/-- A date that the calendar has. -/
def isValid (d : Date) : Bool :=
  1 ≤ d.month && d.month ≤ 12 && 1 ≤ d.day && d.day ≤ monthLength d.year d.month

/-- The day on which 1970 starts, counted from the start of the year 1. -/
def epochDay : Int := 719162

/-- The days from the first of January 1970 to a date. -/
def dayNumber (d : Date) : Int :=
  daysBeforeYear d.year + daysBeforeMonth d.year d.month + (d.day - 1) - epochDay

/-- The year that a day is in, counted from the start of the year 1: a first guess from the mean
length of a year is off by at most one. -/
def yearOfDay (n : Int) : Int :=
  let guess := n * 400 / 146097 + 1
  if n < daysBeforeYear guess then guess - 1
  else if daysBeforeYear (guess + 1) ≤ n then guess + 1
  else guess

/-- The month, counted from the given one on, and the day in it, of a day of the year. -/
def monthAndDay (month : Nat) (lengths : List Nat) (n : Nat) : Nat × Nat :=
  match lengths with
  | [] => (month, n + 1)
  | l :: ls => if n < l then (month, n + 1) else monthAndDay (month + 1) ls (n - l)

/-- The date of a day. -/
def ofDayNumber (n : Int) : Date :=
  let day := n + epochDay
  let year := yearOfDay day
  let md := monthAndDay 1 (monthLengths (isLeapYear year)) (day - daysBeforeYear year).toNat
  ⟨year, md.1, md.2⟩

end Date

end IlpConnector
