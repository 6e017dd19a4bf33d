import RequestMeter.Statistics.Snapshot
import RequestMeter.Tally
import RequestMeter.Json.Write

/-! # Flat reports

A report maps `scope/metric` to a number.  Counters are put in first and keep their places: an
endpoint named `Total` or like a transport cannot replace them.

The numbers are nonnegative and finite, as all counts are, and all averages that a snapshot makes.
Statistics that are filled in by hand could have other averages; these are left out, and a report
would show them unchanged.
-/
namespace RequestMeter

def totalScope : String := "Total"

/-- Where a value of a report belongs. -/
structure Slot where
  scope : String
  metric : String
  deriving DecidableEq, Repr

def Slot.key (s : Slot) : String := s.scope ++ "/" ++ s.metric

structure Report where
  values : Table String Binary64 := .empty

namespace Report

/-- The counter values, in the order in which they are put in. -/
def counterSlots (t : Tally) (inFlight : Nat) : List (Slot × Binary64) :=
  [(⟨totalScope, "count"⟩, .ofNat t.total), (⟨totalScope, "evicted"⟩, .ofNat t.evicted),
    (⟨totalScope, "in_flight"⟩, .ofNat inFlight)] ++
  t.byTransport.entries.map (fun (s, n) => (⟨s.label, "count"⟩, .ofNat n)) ++
  t.byEndpoint.entries.flatMap fun (k, e) =>
    (⟨k, "requests"⟩, .ofNat e.total) ::
    e.byStatus.entries.map (fun (s, n) => (⟨k, "status/" ++ toString s.toNat⟩, .ofNat n)) ++
    e.byClass.entries.map (fun (c, n) => (⟨k, "status/" ++ c.label⟩, .ofNat n))

/-- The metrics of one endpoint's statistics. -/
def metrics (s : EndpointStats) : List (String × Binary64) :=
  [("count", .ofNat s.count), ("sum", .ofNat s.sumMs), ("min", .ofNat s.minMs),
    ("max", .ofNat s.maxMs), ("avg", s.avgMs), ("errors", .ofNat s.errors),
    ("partial", .ofNat s.partials), ("ttfb_avg", s.ttfbAvgMs),
    ("in_throughput", .ofNat s.inThroughput), ("out_throughput", .ofNat s.outThroughput),
    ("prev_routes", .ofNat s.prevRoutes.length)] ++
  s.percentiles.labelled.map fun (label, v) => (label, .ofNat v)

def statsSlots (s : Snapshot) : List (Slot × Binary64) :=
  s.entries.flatMap fun (k, v) => (metrics v).map fun (m, x) => (⟨k, m⟩, x)

def put (r : Report) (slot : Slot) (x : Binary64) : Report × List Notice :=
  match r.values.get? slot.key with
  | none => ({ values := r.values.insert slot.key x }, [])
  | some _ => (r, [.keyTaken slot.key])

def putAll (r : Report) : List (Slot × Binary64) → Report × List Notice
  | [] => (r, [])
  | (slot, x) :: rest =>
    let (r, notice) := r.put slot x
    let (r, notices) := putAll r rest
    (r, notice ++ notices)

/-- The report of a snapshot, the tally and the number of requests in flight. -/
def build (s : Snapshot) (t : Tally) (inFlight : Nat) : Report × List Notice :=
  putAll {} (counterSlots t inFlight ++ statsSlots s)

def get? (r : Report) (key : String) : Option Binary64 := r.values.get? key

def size (r : Report) : Nat := r.values.size

def isEmpty (r : Report) : Bool := r.size = 0

def toJson (r : Report) : Json := .record (r.values.entries.map fun (k, x) => (k, .real x))

end Report

end RequestMeter
