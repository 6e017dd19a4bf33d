import RequestMeter.Binary64
import RequestMeter.Json.Real
import RequestMeter.Percentile
import RequestMeter.Table

/-! # Endpoint statistics

What a snapshot says of one endpoint, or of all of them together.
-/
namespace RequestMeter

structure EndpointStats where
  /-- Records with a latency. -/
  count : Nat := 0
  sumMs : Nat := 0
  minMs : Nat := 0
  maxMs : Nat := 0
  avgMs : Binary64 := .zero
  percentiles : Ladder := {}
  errors : Nat := 0
  /-- Records without a latency. -/
  partials : Nat := 0
  ttfbAvgMs : Binary64 := .zero
  /-- Inbound bytes per second. -/
  inThroughput : Nat := 0
  /-- Outbound bytes per second. -/
  outThroughput : Nat := 0
  prevRoutes : List String := []
  deriving DecidableEq, Repr

def allKey : String := "all"

def Ladder.toJson (l : Ladder) : Json :=
  .record [("p50", .nat l.p50), ("p90", .nat l.p90), ("p95", .nat l.p95), ("p99", .nat l.p99),
    ("p999", .nat l.p999), ("p9999", .nat l.p9999)]

def EndpointStats.toJson (s : EndpointStats) : Json :=
  .record [("count", .nat s.count), ("sum_ms", .nat s.sumMs), ("min_ms", .nat s.minMs),
    ("max_ms", .nat s.maxMs), ("avg_ms", .real s.avgMs), ("percentiles", s.percentiles.toJson),
    ("errors", .nat s.errors), ("partial", .nat s.partials), ("ttfb_avg_ms", .real s.ttfbAvgMs),
    ("in_throughput", .nat s.inThroughput), ("out_throughput", .nat s.outThroughput),
    ("prev_routes", .array (s.prevRoutes.map .str))]

/-- Statistics by endpoint. -/
abbrev Snapshot := Table String EndpointStats

def Snapshot.toJson (s : Snapshot) : Json := .record (s.entries.map fun (k, v) => (k, v.toJson))

end RequestMeter
