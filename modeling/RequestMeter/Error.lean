/-! # Errors

What can be refused, each cause with its message.
-/
namespace RequestMeter

inductive PercentileError where
  | empty
  | invalidRank (rank : Nat)
  deriving DecidableEq, Repr

def PercentileError.message : PercentileError → String
  | .empty => "cannot take a percentile of an empty sample set"
  | .invalidRank rank =>
    "percentile rank " ++ toString rank ++ " is outside 1..=10000 hundredths of a percent"

inductive MeterError where
  /-- A cache without room for one record. -/
  | invalidCapacity (capacity : Nat)
  /-- An event queue without room for one event. -/
  | invalidQueueCapacity (capacity : Nat)
  | percentile (endpoint : String) (cause : PercentileError)
  | queueFull (capacity : Nat)
  | busClosed
  /-- A report did not reach its sink. -/
  | sink (text : String)
  deriving DecidableEq, Repr

def MeterError.message : MeterError → String
  | .invalidCapacity n => "Invalid cache capacity: " ++ toString n ++ " (must be at least 1)"
  | .invalidQueueCapacity n => "Invalid queue capacity: " ++ toString n ++ " (must be at least 1)"
  | .percentile endpoint cause =>
    "Percentile computation failed for '" ++ endpoint ++ "': " ++ cause.message
  | .queueFull n => "Event queue is full (capacity: " ++ toString n ++ ")"
  | .busClosed => "Event bus is closed"
  | .sink text => "Report sink failed: " ++ text

end RequestMeter
