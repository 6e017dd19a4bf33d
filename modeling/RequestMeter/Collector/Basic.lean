import RequestMeter.Record.Draft
import RequestMeter.Ring
import RequestMeter.Tally
import RequestMeter.Notice

/-! # Collectors

A collector sorts events into drafts by request id.  When a request ends its record is counted and
kept in the cache of the newest records.
-/
namespace RequestMeter

structure Collector where
  /-- Requests that have not ended. -/
  inFlight : Table String Draft := .empty
  cache : Ring Record
  tally : Tally := {}
  /-- Whether the first displaced record has been reported. -/
  warnedFull : Bool := false

namespace Collector

/-- A collector that has seen no event, with room for its cache. -/
def new (capacity : Nat) : Except SetupError Collector := do
  return { cache := ← Ring.allocate Record.slotBytes capacity }

structure Observation where
  next : Collector
  done : Except Overflow Bool
  notices : List Notice := []

def retire (c : Collector) (r : Record) : Collector × List Notice :=
  let tally := c.tally.add r.transport r.bucket r.status
  match c.cache.store r with
  | (cache, none) => ({ c with cache, tally }, [])
  | (cache, some _) =>
    ({ c with cache, tally := tally.addEviction, warnedFull := true },
      if c.warnedFull then [] else [.cacheFull cache.capacity])

/-- Adds one event to the draft of its request.  An event after the end of a request starts a new
one with the same id. -/
def observe (c : Collector) (e : Event) : Observation :=
  if e.stage = .unknown then { next := c, done := .ok false }
  else
    match ((c.inFlight.get? e.requestId).getD {}).apply e with
    | (draft, .ok true) =>
      let (next, notices) :=
        { c with inFlight := c.inFlight.erase e.requestId }.retire draft.record
      { next, done := .ok true, notices }
    | (draft, done) => { next := { c with inFlight := c.inFlight.insert e.requestId draft }, done }

/-- Forgets all requests that have not ended, and says how many they were. -/
def discard (c : Collector) : Collector × Nat :=
  ({ c with inFlight := .empty }, c.inFlight.size)

def cached (c : Collector) : Nat := c.cache.size

end Collector

end RequestMeter
