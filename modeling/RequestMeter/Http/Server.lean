import RequestMeter.Collector.Observer
import RequestMeter.Collector.Snapshot
import RequestMeter.Bus.Basic
import RequestMeter.Http.Error
import RequestMeter.Http.Message

/-! # The HTTP server

A server shows the state of one collector, which is the only observer of its bus, and controls
synthetic load.  A request is answered from one state; only load control changes it, and what
happens while the server waits, which is up to the host.
-/
namespace RequestMeter

structure Server where
  collector : Collector
  bus : Bus
  load : LoadControl := {}

/-- What load control and the collector look like. -/
structure PipelineState where
  running : Bool
  inFlight : Nat
  cached : Nat
  completed : Nat
  evicted : Nat
  queueCapacity : Nat
  deriving DecidableEq, Repr

def PipelineState.toJson (p : PipelineState) : Json :=
  .record [("running", .bool p.running), ("in_flight", .nat p.inFlight), ("cached", .nat p.cached),
    ("completed", .nat p.completed), ("evicted", .nat p.evicted),
    ("queue_capacity", .nat p.queueCapacity)]

inductive Route where
  | report
  | latency
  | counts
  | stream
  | loadStatus
  | loadStart
  | loadStop
  deriving DecidableEq, Repr

namespace Route

def ofPath? : String → Option Route
  | "/api/metrics" => some report
  | "/api/metrics/latency" => some latency
  | "/api/metrics/counts" => some counts
  | "/api/metrics/stream" => some stream
  | "/api/load/status" => some loadStatus
  | "/api/load/start" => some loadStart
  | "/api/load/stop" => some loadStop
  | _ => none

/-- Whether a method is allowed: routes that change load control take `POST`, the others `GET` and
`HEAD`. -/
def allows (r : Route) (method : String) : Bool :=
  match r with
  | loadStart | loadStop => method = "POST"
  | _ => method = "GET" || method = "HEAD"

end Route

namespace Server

open Http

/-- A server with nothing recorded; the cache capacity is checked before the queue capacity. -/
def new (cacheCapacity queueCapacity : Nat) : Except SetupError Server := do
  let collector ← Collector.new cacheCapacity
  let bus ← (Bus.new queueCapacity).mapError .meter
  return { collector, bus := ← bus.start.mapError .limit }

def ofRun (s : Server) (r : Bus.Run Collector) : Server :=
  { s with bus := r.bus, collector := r.observers.head?.getD s.collector }

/-- Dispatches all queued events to the collector. -/
def dispatch (s : Server) : Server := s.ofRun (s.bus.drain [s.collector])

/-- What happens while the server waits for a time: all queued events are dispatched, and on a
closed bus a run of synthetic load ends by itself, as it can send nothing. -/
def settle (s : Server) : Server :=
  let s := s.dispatch
  if s.bus.isClosed then { s with load := s.load.finish } else s

def pipelineState (s : Server) : PipelineState where
  running := s.load.running
  inFlight := s.collector.inFlight.size
  cached := s.collector.cached
  completed := s.collector.tally.total
  evicted := s.collector.tally.evicted
  queueCapacity := s.bus.capacity

def ok (j : Json) : Response := { status := 200, body := .json j.compact }

def fail (e : ApiError) : Response := { status := e.status, body := .json e.toJson.compact }

def ofSnapshot {α : Type} (encode : α → Json) :
    Except SnapshotError (α × List Notice) → Except Overflow Response
  | .ok (a, _) => .ok (ok (encode a))
  | .error (.meter e) => .ok (fail (.meter e))
  | .error (.overflow o) => .error o

def frame (s : Server) : Except Overflow String :=
  match s.collector.report with
  | .ok (r, _) => .ok ("data: " ++ r.toJson.compact ++ "\n\n")
  | .error (.meter e) => .ok ("event: error\ndata: " ++ e.message ++ "\n\n")
  | .error (.overflow o) => .error o

/-- The first events of the report stream.  The first one is sent at once; for the tick of each other
one the server waits. -/
def frames (s : Server) : Nat → Server × Except Overflow (List String)
  | 0 => (s, .ok [])
  | n + 1 => match s.frame with
    | .error o => (s, .error o)
    | .ok event =>
      if n = 0 then (s, .ok [event])
      else
        let (s, events) := frames s.settle n
        (s, events.map (event :: ·))

def startLoad (s : Server) (r : Request) : Server × Response :=
  if r.hasJsonBody then
    match LoadRequest.read r.body with
    | .error .malformed => (s, { status := 400 })
    | .error .mistyped => (s, { status := 422 })
    | .ok request => match s.load.start request s.bus.capacity with
      | .error e => (s, fail (.ofControl e))
      | .ok load =>
        let s := { s with load }
        (s, ok s.pipelineState.toJson)
  else (s, { status := 415 })

/-- Stops synthetic load.  The server waits for a run that has not ended, and no longer; as the run
may not go on it sends nothing, but the dispatch loop has some turns until the run has ended. -/
def stopLoad (s : Server) (turns : Nat) : Server :=
  let s := if s.load.active then s.ofRun (s.bus.turns [s.collector] turns) else s
  { s with load := s.load.stop }

def answer (s : Server) (route : Route) (r : Request) (turns : Nat) :
    Server × Except Overflow Response :=
  match route with
  | .report => (s, ofSnapshot Report.toJson s.collector.report)
  | .latency => (s, ofSnapshot Snapshot.toJson s.collector.stats)
  | .counts => (s, .ok (ok s.collector.tally.toJson))
  | .stream => (s, .ok { status := 200, body := .stream })
  | .loadStatus => (s, .ok (ok s.pipelineState.toJson))
  | .loadStart =>
    let (s, response) := s.startLoad r
    (s, .ok response)
  | .loadStop =>
    let s := s.stopLoad turns
    (s, .ok (ok s.pipelineState.toJson))

/-- The answer to a valid request, if the dispatch loop has so many turns while the server waits for a
run to end.  `OPTIONS` is always allowed.  The body of an answer to `HEAD` is not sent. -/
def handle (s : Server) (r : Request) (turns : Nat := Bus.burstSize) :
    Server × Except Overflow Response :=
  let path := (path? r.target).getD []
  if r.method = "OPTIONS" then (s, .ok { status := 200 })
  else match Route.ofPath? (String.ofList path) with
    | none => (s, .ok { status := 404 })
    | some route =>
      if route.allows r.method then s.answer route r turns else (s, .ok { status := 405 })

end Server

end RequestMeter
