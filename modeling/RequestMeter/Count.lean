/-! # Counts that fit in 64 bits

Byte totals and sums of milliseconds are natural numbers.  A sum past the largest 64-bit count is
not stored: the addition reports an overflow and the total keeps its value.
-/
namespace RequestMeter

/-- The largest 64-bit count. -/
def maxCount : Nat := UInt64.size - 1

structure Overflow where
  deriving DecidableEq, Repr

def Overflow.message (_ : Overflow) : String := "attempt to add with overflow"

def addCounts (a b : Nat) : Except Overflow Nat :=
  if a + b ≤ maxCount then .ok (a + b) else .error {}

theorem addCounts_of_le {a b : Nat} (h : a + b ≤ maxCount) : addCounts a b = .ok (a + b) :=
  if_pos h

theorem addCounts_of_lt {a b : Nat} (h : maxCount < a + b) : addCounts a b = .error {} :=
  if_neg (Nat.not_le.mpr h)

theorem addCounts_eq_ok_iff {a b n : Nat} :
    addCounts a b = .ok n ↔ a + b ≤ maxCount ∧ n = a + b := by
  unfold addCounts
  split
  · simp [*, eq_comm]
  · simp [*]

end RequestMeter
