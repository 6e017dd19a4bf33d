import RequestMeter.Timestamp.Calendar

/-! # Timestamps

A moment is a day, a second of the day and nanoseconds.  A leap second has a further second's worth of
nanoseconds, and differences count it when it lies between.  It may stand at any second, though a text
names one only at the end of a minute.
-/
namespace RequestMeter

/-- The first day of year -262143. -/
def firstDay : Int := -96465292

/-- The last day of year 262142. -/
def lastDay : Int := 95026236

structure Timestamp where
  day : Int
  second : Nat
  nano : Nat
  first_le : firstDay ≤ day
  le_last : day ≤ lastDay
  second_lt : second < 86400
  nano_lt : nano < 2000000000
  deriving DecidableEq

namespace Timestamp

def isLeapSecond (t : Timestamp) : Bool := 1000000000 ≤ t.nano

def ofParts? (day : Int) (second nano : Nat) : Option Timestamp :=
  if h : (firstDay ≤ day ∧ day ≤ lastDay) ∧ second < 86400 ∧ nano < 2000000000 then
    some ⟨day, second, nano, h.1.1, h.1.2, h.2.1, h.2.2⟩
  else none

def ofMicros? (micros : Int) : Option Timestamp :=
  let rest := (micros % 86400000000).toNat
  ofParts? (micros / 86400000000) (rest / 1000000) (rest % 1000000 * 1000)

def epoch : Timestamp :=
  ⟨0, 0, 0, by decide, by decide, by decide, by decide⟩

/-- One second more when the earlier time of day is a leap second, one less when the later one in
the other order is. -/
def leapCorrection (t s : Timestamp) : Int :=
  if s.second < t.second ∧ s.isLeapSecond then 1
  else if t.second < s.second ∧ t.isLeapSecond then -1
  else 0

def nanosSince (t s : Timestamp) : Int :=
  ((t.day - s.day) * 86400 + ((t.second : Int) - s.second) + leapCorrection t s) * 1000000000 +
    ((t.nano : Int) - s.nano)

/-- Whole milliseconds from `s` to `t`, none when `t` is before `s`. -/
def millisSince (t s : Timestamp) : Nat := (t.nanosSince s).toNat / 1000000

def secondsSince (t s : Timestamp) : Nat := (t.nanosSince s).toNat / 1000000000

end Timestamp

end RequestMeter
