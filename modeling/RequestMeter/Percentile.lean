import RequestMeter.Error

/-! # Nearest-rank percentiles

Ranks are hundredths of a percent.  The percentile of a sorted list is the element at position
⌈rank · n / 10000⌉, counted from 1; there is no interpolation, and all of it is integer arithmetic.
-/
namespace RequestMeter

def fullRank : Nat := 10000

/-- The 1-based position of a rank among `n` samples. -/
def rankPosition (rank n : Nat) : Nat :=
  max ((rank * n + (fullRank - 1)) / fullRank) 1

/-- The element of an ascending list at a rank from 1 to 10000. -/
def nearestRank (sorted : List Nat) (rank : Nat) : Except PercentileError Nat :=
  if sorted = [] then .error .empty
  else if rank = 0 ∨ fullRank < rank then .error (.invalidRank rank)
  else .ok (sorted.getD (min (rankPosition rank sorted.length) sorted.length - 1) 0)

/-- The percentiles that are reported for every endpoint. -/
structure Ladder where
  p50 : Nat := 0
  p90 : Nat := 0
  p95 : Nat := 0
  p99 : Nat := 0
  p999 : Nat := 0
  p9999 : Nat := 0
  deriving DecidableEq, Repr

namespace Ladder

def ofSorted (sorted : List Nat) : Except PercentileError Ladder := do
  return {
    p50 := ← nearestRank sorted 5000
    p90 := ← nearestRank sorted 9000
    p95 := ← nearestRank sorted 9500
    p99 := ← nearestRank sorted 9900
    p999 := ← nearestRank sorted 9990
    p9999 := ← nearestRank sorted 9999 }

def sort (samples : List Nat) : List Nat := samples.mergeSort fun a b => decide (a ≤ b)

def ofSamples (samples : List Nat) : Except PercentileError Ladder := ofSorted (sort samples)

def labelled (l : Ladder) : List (String × Nat) :=
  [("p50", l.p50), ("p90", l.p90), ("p95", l.p95), ("p99", l.p99), ("p99.9", l.p999),
    ("p99.99", l.p9999)]

end Ladder

end RequestMeter
