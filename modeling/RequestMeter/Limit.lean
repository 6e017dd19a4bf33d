import RequestMeter.Error

/-! # Limits of the host

Three sizes are bounded by the host and by no rule of the meter: the bytes of a store, whose slots are
set aside at once, the places of a queue, and the seconds of the clock.  A size past its limit is
refused before anything is built.
-/
namespace RequestMeter

/-- A limit that a size went past. -/
inductive HostLimit where
  | storage
  | queue
  | clock
  deriving DecidableEq, Repr

namespace HostLimit

/-- The most bytes of a store, the most places of a queue, and the last second of the clock. -/
def bound : HostLimit → Nat
  | storage => Nat.pow 2 63 - 1
  | queue => Nat.pow 2 61 - 1
  | clock => Nat.pow 2 63 - 1

def message : HostLimit → String
  | storage => "capacity overflow"
  | queue =>
    "a semaphore may not have more than MAX_PERMITS permits (" ++ toString queue.bound ++ ")"
  | clock => "overflow when adding duration to instant"

def check (l : HostLimit) (size : Nat) : Except HostLimit Unit :=
  if size ≤ l.bound then .ok () else .error l

theorem check_eq_ok_iff {l : HostLimit} {size : Nat} : l.check size = .ok () ↔ size ≤ l.bound := by
  unfold check; split <;> simp [*]

end HostLimit

inductive SetupError where
  | meter (e : MeterError)
  | limit (l : HostLimit)
  deriving DecidableEq, Repr

end RequestMeter
