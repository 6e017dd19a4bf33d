/-! # Calendar days

The Gregorian calendar, extended to all years, with year 0 before year 1.  Days are counted from
1970-01-01, which is day 0.
-/
namespace RequestMeter

def isLeap (year : Int) : Bool := year % 4 = 0 && (year % 100 ≠ 0 || year % 400 = 0)

def monthLengths (year : Int) : List Nat :=
  [31, if isLeap year then 29 else 28, 31, 30, 31, 30, 31, 31, 30, 31, 30, 31]

/-- Days from 1 January of year 0 to 1 January of a year. -/
def daysBeforeYear (year : Int) : Int :=
  365 * year + (year + 3) / 4 - (year + 99) / 100 + (year + 399) / 400

/-- Days from 1 January of year 0 to day 0. -/
def dayZero : Int := 719528

structure Date where
  year : Int
  month : Nat
  day : Nat
  deriving DecidableEq, Repr

namespace Date

def isValid (d : Date) : Bool :=
  1 ≤ d.month && d.month ≤ 12 && 1 ≤ d.day && d.day ≤ (monthLengths d.year).getD (d.month - 1) 0

def toDayNumber (d : Date) : Int :=
  daysBeforeYear d.year + ((monthLengths d.year).take (d.month - 1)).foldl Nat.add 0 + d.day - 1 - dayZero

/-- The year of the day that lies `n` days after 1 January of year 0.  The quotient by the mean
length of a year is at most one year off. -/
def yearOf (n : Int) : Int :=
  let y := 400 * n / 146097
  if daysBeforeYear (y + 1) ≤ n then y + 1
  else if n < daysBeforeYear y then y - 1
  else y

/-- Month and day of the month of a day of the year, the first one being 0. -/
def monthAndDay : List Nat → Nat → Nat × Nat
  | [], n => (1, n + 1)
  | length :: rest, n =>
    if n < length then (1, n + 1)
    else
      let (m, d) := monthAndDay rest (n - length)
      (m + 1, d)

def ofDayNumber (n : Int) : Date :=
  let year := yearOf (n + dayZero)
  let (month, day) := monthAndDay (monthLengths year) (n + dayZero - daysBeforeYear year).toNat
  ⟨year, month, day⟩

end Date

end RequestMeter
