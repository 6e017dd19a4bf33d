import RequestMeter.Event.Basic
import RequestMeter.Numeral
import RequestMeter.Json.Basic

/-! # Tallies

Running totals over all completed transactions.  They only grow, whatever the cache forgets.
-/
namespace RequestMeter

inductive StatusClass where
  | informational
  | success
  | redirection
  | clientError
  | serverError
  | other
  deriving DecidableEq, Repr

namespace StatusClass

def label : StatusClass → String
  | informational => "1xx"
  | success => "2xx"
  | redirection => "3xx"
  | clientError => "4xx"
  | serverError => "5xx"
  | other => "other"

def rank : StatusClass → Nat
  | informational => 1
  | success => 2
  | redirection => 3
  | clientError => 4
  | serverError => 5
  | other => 6

instance : Key StatusClass := Key.ofRank rank (fun {a b} h => by cases a <;> cases b <;> trivial)

/-- The class of a status: its hundreds from 1 to 5. -/
def ofStatus (status : UInt16) : StatusClass :=
  match status.toNat / 100 with
  | 1 => informational
  | 2 => success
  | 3 => redirection
  | 4 => clientError
  | 5 => serverError
  | _ => other

end StatusClass

structure EndpointTally where
  total : Nat := 0
  /-- A transaction without a status counts under status 0. -/
  byStatus : Table UInt16 Nat := .empty
  byClass : Table StatusClass Nat := .empty

structure Tally where
  /-- Completed transactions. -/
  total : Nat := 0
  /-- Records that the cache displaced. -/
  evicted : Nat := 0
  byTransport : Table Transport Nat := .empty
  byEndpoint : Table String EndpointTally := .empty

namespace EndpointTally

def add (t : EndpointTally) (status : Option UInt16) : EndpointTally where
  total := t.total + 1
  byStatus := t.byStatus.tick (status.getD 0)
  byClass := t.byClass.tick (StatusClass.ofStatus (status.getD 0))

def toJson (t : EndpointTally) : Json :=
  .record [("total", .nat t.total),
    ("by_status", .record (t.byStatus.entries.map fun (s, n) => (toString s.toNat, .nat n))),
    ("by_class", .record (t.byClass.entries.map fun (c, n) => (c.label, .nat n)))]

end EndpointTally

namespace Tally

def add (t : Tally) (transport : Option Transport) (endpoint : String) (status : Option UInt16) :
    Tally where
  total := t.total + 1
  evicted := t.evicted
  byTransport := match transport with
    | some s => t.byTransport.tick s
    | none => t.byTransport
  byEndpoint := t.byEndpoint.update endpoint fun e => (e.getD {}).add status

def addEviction (t : Tally) : Tally := { t with evicted := t.evicted + 1 }

def toJson (t : Tally) : Json :=
  .record [("total", .nat t.total), ("evicted", .nat t.evicted),
    ("by_transport", .record (t.byTransport.entries.map fun (s, n) => (s.label, .nat n))),
    ("by_key", .record (t.byEndpoint.entries.map fun (k, e) => (k, e.toJson)))]

end Tally

end RequestMeter
