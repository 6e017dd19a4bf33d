import RequestMeter.Statistics.Accumulator
import RequestMeter.Notice

/-! # Snapshots

Statistics of every endpoint among some records, and of all of them together.  An endpoint with the
name of the aggregate is part of the aggregate and has no entry of its own.
-/
namespace RequestMeter

inductive SnapshotError where
  | overflow (o : Overflow)
  | meter (e : MeterError)
  deriving DecidableEq, Repr

namespace Snapshot

abbrev Buckets := Table String Accumulator

def addRecord (b : Buckets) (r : Record) : Except Overflow Buckets := do
  let a ← ((b.get? r.bucket).getD {}).add r
  return b.insert r.bucket a

def collect (records : List Record) : Except Overflow Buckets := records.foldlM addRecord .empty

def total (b : Buckets) : Except Overflow Accumulator := b.values.foldlM Accumulator.merge {}

/-- The statistics of every endpoint but one with the name of the aggregate. -/
def endpoints (b : Buckets) : Except MeterError Snapshot :=
  b.entries.foldlM (fun s (k, a) => do
    if k = allKey then return s else return s.insert k (← a.finish k)) .empty

/-- One notice when an endpoint has the name of the aggregate. -/
def shadowNotices (b : Buckets) : List Notice :=
  if (b.get? allKey).isSome then [.endpointShadowed allKey] else []

/-- The statistics from the inputs, and what is logged. -/
def ofBuckets (b : Buckets) : Except SnapshotError (Snapshot × List Notice) := do
  let all ← (total b).mapError .overflow
  let s ← (endpoints b).mapError .meter
  let a ← (all.finish allKey).mapError .meter
  return (s.insert allKey a, shadowNotices b)

def ofRecords (records : List Record) : Except SnapshotError (Snapshot × List Notice) := do
  ofBuckets (← (collect records).mapError .overflow)

end Snapshot

end RequestMeter
