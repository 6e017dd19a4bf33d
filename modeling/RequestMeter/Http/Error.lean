import RequestMeter.Load.Control
import RequestMeter.Json.Write

/-! # Error responses

An error is answered with a status and a JSON body that repeats it.
-/
namespace RequestMeter

inductive ApiError where
  | meter (e : MeterError)
  | badRequest (text : String)
  | alreadyRunning
  deriving DecidableEq, Repr

namespace ApiError

def status : ApiError → Nat
  | meter _ => 500
  | badRequest _ => 400
  | alreadyRunning => 409

def message : ApiError → String
  | meter e => e.message
  | badRequest text => text
  | alreadyRunning => ControlError.alreadyRunning.message

def toJson (e : ApiError) : Json :=
  .record [("error", .str e.message), ("status", .nat e.status)]

def ofControl : ControlError → ApiError
  | .alreadyRunning => alreadyRunning
  | e => badRequest e.message

end ApiError

end RequestMeter
