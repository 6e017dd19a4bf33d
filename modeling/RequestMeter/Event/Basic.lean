import RequestMeter.Table
import RequestMeter.Timestamp.Basic

/-! # Lifecycle events

A transport reports one request as a series of events that carry the same request id.
-/
namespace RequestMeter

inductive Stage where
  | headerReceived
  | begun
  | inPayload
  | inTrailer
  | outPayload
  | outTrailer
  | ended
  /-- A stage with another label; it is ignored. -/
  | unknown
  deriving DecidableEq, Repr

def Stage.label : Stage → String
  | .headerReceived => "header-received"
  | .begun => "begin"
  | .inPayload => "in-payload"
  | .inTrailer => "in-trailer"
  | .outPayload => "out-payload"
  | .outTrailer => "out-trailer"
  | .ended => "end"
  | .unknown => "unknown"

/-- The stage with a label; a label that no stage has is the unknown stage. -/
def Stage.ofLabel : String → Stage
  | "header-received" => .headerReceived
  | "begin" => .begun
  | "in-payload" => .inPayload
  | "in-trailer" => .inTrailer
  | "out-payload" => .outPayload
  | "out-trailer" => .outTrailer
  | "end" => .ended
  | _ => .unknown

/-- The wire family a request came over. -/
inductive Transport where
  | rpc
  | rpcTls
  | http
  | https
  deriving DecidableEq, Repr

namespace Transport

def label : Transport → String
  | rpc => "rpc"
  | rpcTls => "rpc-tls"
  | http => "http"
  | https => "https"

def ofLabel? : String → Option Transport
  | "rpc" => some rpc
  | "rpc-tls" => some rpcTls
  | "http" => some http
  | "https" => some https
  | _ => none

def rank : Transport → Nat
  | rpc => 0
  | rpcTls => 1
  | http => 2
  | https => 3

instance : Key Transport := Key.ofRank rank (fun {a b} h => by cases a <;> cases b <;> trivial)

/-- Whether the transport reports a status when a request ends. -/
def hasStatus : Transport → Bool
  | rpc | rpcTls => false
  | http | https => true

end Transport

/-- What an event carries besides its stage. -/
inductive Payload where
  | none
  /-- Bytes on the wire. -/
  | bytes (n : UInt64)
  /-- The error that a request ended with. -/
  | error (text : String)
  deriving DecidableEq, Repr

/-- Bytes on the wire; other payloads have none. -/
def Payload.byteCount : Payload → Nat
  | .bytes n => n.toNat
  | _ => 0

structure Event where
  stage : Stage
  transport : Transport
  requestId : String
  /-- The logical endpoint, empty when not known. -/
  endpoint : String := ""
  /-- The route the client came from, empty when not known. -/
  prevRoute : String := ""
  timestamp : Timestamp
  payload : Payload := .none
  status : Option UInt16 := none
  deriving DecidableEq

theorem Transport.ofLabel?_label (t : Transport) : Transport.ofLabel? t.label = some t := by
  cases t <;> rfl

theorem Stage.ofLabel_label (s : Stage) : Stage.ofLabel s.label = s := by cases s <;> rfl

theorem Transport.label_injective {t u : Transport} (h : t.label = u.label) : t = u := by
  have := Transport.ofLabel?_label t
  rw [h, Transport.ofLabel?_label] at this
  exact (Option.some.inj this).symm

end RequestMeter
