import RequestMeter.Event.Json

/-! # Transaction records

What is known of one request.  Times that were never reported are missing, and so is every duration
that needs them.
-/
namespace RequestMeter

structure Record where
  endpoint : String := ""
  transport : Option Transport := none
  status : Option UInt16 := none
  prevRoute : String := ""
  error : Option String := none
  begun : Option Timestamp := none
  ended : Option Timestamp := none
  /-- The first outbound payload. -/
  firstByte : Option Timestamp := none
  /-- The last inbound payload or trailer. -/
  inCapture : Option Timestamp := none
  /-- The last outbound payload or trailer. -/
  outCapture : Option Timestamp := none
  inBytes : Nat := 0
  outBytes : Nat := 0
  deriving DecidableEq

def unknownEndpoint : String := "unknown"

namespace Record

/-- The bytes set aside for a record: three texts of 24, five times of 12, two counts of 8, a status
of 4 and a transport of 1, rounded up to words of 8. -/
def slotBytes : Nat := 160

def bucket (r : Record) : String := if r.endpoint = "" then unknownEndpoint else r.endpoint

def latency (r : Record) : Option Nat := do return (← r.ended).millisSince (← r.begun)

/-- Whole milliseconds from begin to the first outbound payload. -/
def timeToFirstByte (r : Record) : Option Nat := do return (← r.firstByte).millisSince (← r.begun)

/-- Whole seconds from begin to the last inbound capture. -/
def inWindow (r : Record) : Option Nat := do return (← r.inCapture).secondsSince (← r.begun)

def outWindow (r : Record) : Option Nat := do return (← r.outCapture).secondsSince (← r.begun)

def isError (r : Record) : Bool := r.error.isSome

def orNull {α : Type} (encode : α → Json) : Option α → Json
  | some a => encode a
  | none => .null

def toJson (r : Record) : Json :=
  .record [("key", .str r.endpoint), ("transport", orNull (fun t => .str t.label) r.transport),
    ("http_status", orNull (fun s => .nat s.toNat) r.status), ("prev_route", .str r.prevRoute),
    ("error", orNull .str r.error), ("begin_time", orNull Timestamp.toJson r.begun),
    ("end_time", orNull Timestamp.toJson r.ended),
    ("first_byte_time", orNull Timestamp.toJson r.firstByte),
    ("in_capture_time", orNull Timestamp.toJson r.inCapture),
    ("out_capture_time", orNull Timestamp.toJson r.outCapture),
    ("in_wire_length", .nat r.inBytes), ("out_wire_length", .nat r.outBytes)]

end Record

end RequestMeter
