import RequestMeter.Collector.Basic
import RequestMeter.Report.Basic

/-! # Snapshots of a collector

Statistics cover the cached records; a report shows them with the tally and the number of requests
in flight, all of one state.
-/
namespace RequestMeter.Collector

def stats (c : Collector) : Except SnapshotError (Snapshot × List Notice) :=
  Snapshot.ofRecords c.cache.toList

def report (c : Collector) : Except SnapshotError (Report × List Notice) := do
  let (s, notices) ← c.stats
  let (r, more) := Report.build s c.tally c.inFlight.size
  return (r, notices ++ more)

end RequestMeter.Collector
