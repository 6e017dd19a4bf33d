import RequestMeter.Event.Basic
import RequestMeter.Timestamp.Text
import RequestMeter.Json.Read
import RequestMeter.Json.Write
import RequestMeter.Json.Decode

/-! # Events as JSON

An event is written as an object with all eight fields.  What is read may leave out the endpoint,
the previous route, the payload and the status, may have further fields, and may be an array.
-/
namespace RequestMeter

open Json

namespace Payload

def toJson : Payload → Json
  | none => record [("kind", str "none")]
  | bytes n => record [("kind", str "bytes"), ("value", nat n.toNat)]
  | error text => record [("kind", str "error"), ("value", str text)]

/-- The payload of a kind, whose value may be missing or `null` only for the kind `none`. -/
def ofKind? (kind : String) (value : Option Json) : Option Payload :=
  match kind, value with
  | "none", .none => some none
  | "none", some .null => some none
  | "bytes", some j => j.count?.map fun n => bytes (UInt64.ofNat n)
  | "error", some j => j.text?.map error
  | _, _ => .none

def fields : List String := ["kind", "value"]

def ofMembers? (get : String → Option Json) : Option Payload := do
  ofKind? (← (← get "kind").name?) (get "value")

/-- A payload is an object with a kind, or an array of a kind and a value; in an array the kind is
always a string. -/
def ofJson? : Json → Option Payload
  | array [kind, value] => do ofKind? (← kind.text?) (some value)
  | object fs => do ofMembers? (← (object fs).members? fields)
  | _ => .none

end Payload

/-- A 16-bit number; `null` is none. -/
def Json.status? : Json → Option (Option UInt16)
  | null => some none
  | j => (j.natural? 65535).map fun n => some (UInt16.ofNat n)

def Timestamp.toJson (t : Timestamp) : Json := str (String.ofList t.write)

namespace Event

def fields : List String :=
  ["event_type", "transport", "request_id", "key", "prev_route", "timestamp", "value", "status"]

def toJson (e : Event) : Json :=
  record [("event_type", str e.stage.label), ("transport", str e.transport.label),
    ("request_id", str e.requestId), ("key", str e.endpoint), ("prev_route", str e.prevRoute),
    ("timestamp", e.timestamp.toJson), ("value", e.payload.toJson),
    ("status", match e.status with | some s => nat s.toNat | none => null)]

def ofMembers? (get : String → Option Json) : Option Event := do
  return {
    stage := Stage.ofLabel (← (← get "event_type").name?)
    transport := ← Transport.ofLabel? (← (← get "transport").name?)
    requestId := ← (← get "request_id").text?
    endpoint := ← optional "" text? (get "key")
    prevRoute := ← optional "" text? (get "prev_route")
    timestamp := ← Timestamp.read? (← (← get "timestamp").text?).toList
    payload := ← optional .none Payload.ofJson? (get "value")
    status := ← optional none status? (get "status") }

def ofJson? (j : Json) : Option Event := do ofMembers? (← j.members? fields)

/-- The event that a JSON text spells. -/
def parse? (s : String) : Option Event := do ofJson? (← Json.parse? s)

def compact (e : Event) : String := e.toJson.compact

end Event

end RequestMeter
