import RequestMeter.Record.Basic
import RequestMeter.Count

/-! # Drafts of records

A draft gathers the events of one request until the request ends.  An event whose bytes do not fit
the byte count fails, and so does one that is past the largest number of events; what it set before
the addition stays set.
-/
namespace RequestMeter

structure Draft where
  record : Record := {}
  /-- Events gathered, unknown ones not counted. -/
  seen : Nat := 0
  deriving DecidableEq

namespace Draft

/-- What one event does to a draft, and whether it ended the request. -/
abbrev Applied := Draft × Except Overflow Bool

/-- The most events that a draft counts: the number of events has 32 bits. -/
def maxSeen : Nat := UInt32.size - 1

/-- Puts a changed record into the draft and then counts the event, if there is a number left. -/
def gather (d : Draft) (r : Record) (ended : Bool) : Applied :=
  if d.seen < maxSeen then ({ record := r, seen := d.seen + 1 }, .ok ended)
  else ({ d with record := r }, .error {})

def gatherIn (d : Draft) (r : Record) (e : Event) (f : Record → Record) : Applied :=
  match addCounts r.inBytes e.payload.byteCount with
  | .ok n => gather d (f { r with inBytes := n }) false
  | .error o => ({ d with record := r }, .error o)

def gatherOut (d : Draft) (r : Record) (e : Event) (f : Record → Record) : Applied :=
  match addCounts r.outBytes e.payload.byteCount with
  | .ok n => gather d (f { r with outBytes := n }) false
  | .error o => ({ d with record := r }, .error o)

/-- A text that an event carries replaces the one known before, unless it is empty. -/
def preferText (new old : String) : String := if new = "" then old else new

def apply (d : Draft) (e : Event) : Applied :=
  let r := d.record
  match e.stage with
  | .headerReceived =>
    gatherIn d { r with
      endpoint := preferText e.endpoint r.endpoint
      prevRoute := preferText e.prevRoute r.prevRoute
      transport := some e.transport } e id
  | .begun =>
    gather d { r with
      begun := some e.timestamp
      transport := some (r.transport.getD e.transport) } false
  | .inPayload | .inTrailer =>
    gatherIn d r e fun r => { r with inCapture := some e.timestamp }
  | .outPayload =>
    gatherOut d r e fun r => { r with
      firstByte := some (r.firstByte.getD e.timestamp)
      outCapture := some e.timestamp }
  | .outTrailer =>
    gatherOut d r e fun r => { r with outCapture := some e.timestamp }
  | .ended =>
    gather d { r with
      ended := some e.timestamp
      transport := some (r.transport.getD e.transport)
      status := e.status.or r.status
      error := match e.payload with
        | .error text => some text
        | _ => r.error } true
  | .unknown => (d, .ok false)

/-- The draft after a series of events, failed ones included. -/
def applyAll (d : Draft) (es : List Event) : Draft := es.foldl (fun d e => (d.apply e).1) d

end Draft

end RequestMeter
