import RequestMeter.Event.Basic

/-! # Synthetic traffic

The events that a load worker sends for one transaction.  Endpoint, previous route, sizes, times and
failure are drawn at random; a transaction is determined by its draw.
-/
namespace RequestMeter.Traffic

structure Endpoint where
  name : String
  transport : Transport
  /-- The median service time in milliseconds. -/
  baseMs : Nat
  /-- The typical size of a response body. -/
  bodyBytes : Nat
  deriving DecidableEq, Repr

def endpoints : List Endpoint :=
  [⟨"GET /api/users/:id", .https, 4, 820⟩, ⟨"POST /api/users", .https, 9, 240⟩,
    ⟨"GET /api/products/:id", .http, 3, 1600⟩, ⟨"/catalog.Search/Query", .rpcTls, 12, 12000⟩,
    ⟨"/session.Store/Touch", .rpc, 1, 64⟩]

def prevRoutes : List String := ["/", "/home", "/search", "/cart", ""]

/-- The outcome of the random choices for one transaction, and the clock reading at each of its six
events. -/
structure Draw where
  endpoint : Endpoint
  prevRoute : String
  requestId : String
  failed : Bool
  headerBytes : UInt64
  inBytes : UInt64
  outBytes : UInt64
  trailerBytes : UInt64
  clock : Fin 6 → Timestamp

def errorText (t : Transport) : String :=
  if t.hasStatus then "upstream unavailable" else "deadline exceeded"

def status (t : Transport) (failed : Bool) : Option UInt16 :=
  if t.hasStatus then some (if failed then 503 else 200) else none

/-- The six events of a transaction, in the order in which they are sent. -/
def transaction (d : Draw) : List Event :=
  let event (stage : Stage) (i : Fin 6) : Event :=
    { stage, transport := d.endpoint.transport, requestId := d.requestId, timestamp := d.clock i }
  [{ event .headerReceived 0 with
      endpoint := d.endpoint.name
      prevRoute := d.prevRoute
      payload := .bytes d.headerBytes },
    event .begun 1,
    { event .inPayload 2 with payload := .bytes d.inBytes },
    { event .outPayload 3 with payload := .bytes d.outBytes },
    { event .outTrailer 4 with payload := .bytes d.trailerBytes },
    { event .ended 5 with
      payload := if d.failed then .error (errorText d.endpoint.transport) else .none
      status := status d.endpoint.transport d.failed }]

/-- Whether a transaction fails, given a draw from 0 to 99. -/
def fails (percent errorPct : Nat) : Bool := percent < errorPct

@[simp] theorem length_transaction (d : Draw) : (transaction d).length = 6 := rfl

end RequestMeter.Traffic
