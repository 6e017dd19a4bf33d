import RequestMeter.Binary64

/-! # Notices

What the meter logs.  Operations return their notices in order; writing them somewhere is not their
task.
-/
namespace RequestMeter

inductive Level where
  | trace
  | debug
  | info
  | warn
  deriving DecidableEq, Repr

def Level.label : Level → String
  | .trace => "TRACE"
  | .debug => "DEBUG"
  | .info => "INFO"
  | .warn => "WARN"

structure Summary where
  total : Binary64
  inFlight : Binary64
  evicted : Binary64
  count : Binary64
  avgMs : Binary64
  p50Ms : Binary64
  p99Ms : Binary64
  errors : Binary64
  deriving DecidableEq, Repr

inductive Notice where
  /-- The cache displaces a record for the first time. -/
  | cacheFull (capacity : Nat)
  /-- An endpoint has the name of the aggregate and gets no entry of its own. -/
  | endpointShadowed (endpoint : String)
  /-- A report has a value under the key already. -/
  | keyTaken (key : String)
  | report (summary : Summary)
  | transactionComplete (requestId : String)
  | busStarted (observers capacity : Nat)
  | busStopped (dispatched dropped : Nat)
  /-- An observer failed, and dispatch ended with it. -/
  | busFailed
  deriving DecidableEq, Repr

namespace Notice

def level : Notice → Level
  | cacheFull _ => .debug
  | endpointShadowed _ => .warn
  | keyTaken _ => .warn
  | report _ => .info
  | transactionComplete _ => .trace
  | busStarted _ _ => .debug
  | busStopped _ _ => .debug
  | busFailed => .warn

def message : Notice → String
  | cacheFull _ => "transaction cache full, evicting oldest records"
  | endpointShadowed _ => "endpoint is shadowed by the aggregate entry"
  | keyTaken _ => "report key already taken, endpoint metric dropped"
  | report _ => "metrics report"
  | transactionComplete _ => "transaction complete"
  | busStarted _ _ => "event bus started"
  | busStopped _ _ => "event bus stopped"
  | busFailed => "event bus task failed:"

inductive Field where
  | count (n : Nat)
  | real (x : Binary64)
  | text (s : String)
  deriving DecidableEq, Repr

def fields : Notice → List (String × Field)
  | cacheFull capacity => [("capacity", .count capacity)]
  | endpointShadowed endpoint => [("key", .text endpoint)]
  | keyTaken key => [("key", .text key)]
  | report s => [("total", .real s.total), ("in_flight", .real s.inFlight),
      ("evicted", .real s.evicted), ("count", .real s.count), ("avg_ms", .real s.avgMs),
      ("p50_ms", .real s.p50Ms), ("p99_ms", .real s.p99Ms), ("errors", .real s.errors)]
  | transactionComplete requestId => [("request_id", .text requestId)]
  | busStarted observers capacity => [("observers", .count observers), ("capacity", .count capacity)]
  | busStopped dispatched dropped => [("dispatched", .count dispatched), ("dropped", .count dropped)]
  | busFailed => []

end Notice

end RequestMeter
