import RequestMeter.Record.Basic
import RequestMeter.Count
import RequestMeter.Statistics.Basic
import RequestMeter.Error

/-! # Accumulators

The running inputs of one endpoint's statistics.  Sums of milliseconds, bytes and seconds are 64-bit
counts: a sum that does not fit makes the whole snapshot fail.
-/
namespace RequestMeter

structure Accumulator where
  count : Nat := 0
  sum : Nat := 0
  low : Nat := 0
  high : Nat := 0
  errors : Nat := 0
  partials : Nat := 0
  samples : List Nat := []
  ttfbSum : Nat := 0
  ttfbCount : Nat := 0
  inBytes : Nat := 0
  inSecs : Nat := 0
  outBytes : Nat := 0
  outSecs : Nat := 0
  prevRoutes : Table String Unit := .empty

namespace Accumulator

def addLatency (a : Accumulator) (ms : Nat) : Except Overflow Accumulator := do
  let sum ← addCounts a.sum ms
  return { a with
    low := if a.count = 0 then ms else min a.low ms
    high := if a.count = 0 then ms else max a.high ms
    count := a.count + 1
    sum
    samples := ms :: a.samples }

/-- Adds the latency of a record, or counts the record as partial. -/
def addTimes (a : Accumulator) (r : Record) : Except Overflow Accumulator :=
  match r.latency with
  | some ms => a.addLatency ms
  | none => .ok { a with partials := a.partials + 1 }

def addFirstByte (a : Accumulator) (r : Record) : Except Overflow Accumulator :=
  match r.timeToFirstByte with
  | some ms => do return { a with
      ttfbSum := ← addCounts a.ttfbSum ms
      ttfbCount := a.ttfbCount + 1 }
  | none => .ok a

/-- A window of at least one second, on which throughput is measured. -/
def wholeWindow (window : Option Nat) : Option Nat := window.filter (0 < ·)

def addInbound (a : Accumulator) (r : Record) : Except Overflow Accumulator :=
  match wholeWindow r.inWindow with
  | some secs => do return { a with
      inBytes := ← addCounts a.inBytes r.inBytes
      inSecs := ← addCounts a.inSecs secs }
  | none => .ok a

def addOutbound (a : Accumulator) (r : Record) : Except Overflow Accumulator :=
  match wholeWindow r.outWindow with
  | some secs => do return { a with
      outBytes := ← addCounts a.outBytes r.outBytes
      outSecs := ← addCounts a.outSecs secs }
  | none => .ok a

/-- Counts a record's error and notes its previous route. -/
def addMarks (a : Accumulator) (r : Record) : Accumulator :=
  { a with
    errors := if r.isError then a.errors + 1 else a.errors
    prevRoutes := if r.prevRoute = "" then a.prevRoutes else a.prevRoutes.insert r.prevRoute () }

def add (a : Accumulator) (r : Record) : Except Overflow Accumulator := do
  let a ← (a.addMarks r).addTimes r
  let a ← a.addFirstByte r
  let a ← a.addInbound r
  a.addOutbound r

/-- The smaller of two minima, either of which is void when it has no samples. -/
def mergeLow (a b : Accumulator) : Nat :=
  if b.count = 0 then a.low else if a.count = 0 then b.low else min a.low b.low

def mergeHigh (a b : Accumulator) : Nat :=
  if b.count = 0 then a.high else if a.count = 0 then b.high else max a.high b.high

/-- Adds all that another endpoint gathered. -/
def merge (a b : Accumulator) : Except Overflow Accumulator := do
  return {
    count := a.count + b.count
    sum := ← addCounts a.sum b.sum
    low := mergeLow a b
    high := mergeHigh a b
    errors := a.errors + b.errors
    partials := a.partials + b.partials
    samples := b.samples ++ a.samples
    ttfbSum := ← addCounts a.ttfbSum b.ttfbSum
    ttfbCount := a.ttfbCount + b.ttfbCount
    inBytes := ← addCounts a.inBytes b.inBytes
    inSecs := ← addCounts a.inSecs b.inSecs
    outBytes := ← addCounts a.outBytes b.outBytes
    outSecs := ← addCounts a.outSecs b.outSecs
    prevRoutes := a.prevRoutes.merge b.prevRoutes }

def mean (sum count : Nat) : Binary64 :=
  if count = 0 then .zero else (Binary64.ofNat sum).div (Binary64.ofNat count)

def perSecond (bytes secs : Nat) : Nat := if secs = 0 then 0 else bytes / secs

def finish (a : Accumulator) (endpoint : String) : Except MeterError EndpointStats := do
  let percentiles ←
    if a.count = 0 then pure {}
    else (Ladder.ofSamples a.samples).mapError (.percentile endpoint)
  return {
    count := a.count
    sumMs := a.sum
    minMs := a.low
    maxMs := a.high
    avgMs := mean a.sum a.count
    percentiles
    errors := a.errors
    partials := a.partials
    ttfbAvgMs := mean a.ttfbSum a.ttfbCount
    inThroughput := perSecond a.inBytes a.inSecs
    outThroughput := perSecond a.outBytes a.outSecs
    prevRoutes := a.prevRoutes.keys }

end Accumulator

end RequestMeter
