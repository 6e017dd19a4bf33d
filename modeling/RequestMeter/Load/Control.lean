import RequestMeter.Load.Request
import RequestMeter.Error

/-! # Load control

At most one run of synthetic load is active.  A flag says that a run may go on, and a slot keeps the
handle of the last run that was started, until it is stopped.
-/
namespace RequestMeter

inductive ControlError where
  /-- More workers than the event queue has room for events, or none. -/
  | workers (queueCapacity : Nat)
  | duration
  | errorShare
  | alreadyRunning
  deriving DecidableEq, Repr

def maxDurationSecs : Nat := 300

def ControlError.message : ControlError → String
  | .workers queueCapacity =>
    "workers must be between 1 and the queue capacity (" ++ toString queueCapacity ++ ")"
  | .duration => "duration_secs must be between 1 and " ++ toString maxDurationSecs
  | .errorShare => "error_pct must be at most 100"
  | .alreadyRunning => "Synthetic load already running"

def LoadRequest.check (r : LoadRequest) (queueCapacity : Nat) : Except ControlError Unit :=
  if r.workers = 0 ∨ min queueCapacity (UInt32.size - 1) < r.workers then .error (.workers queueCapacity)
  else if r.durationSecs = 0 ∨ maxDurationSecs < r.durationSecs then .error .duration
  else if 100 < r.errorPct then .error .errorShare
  else .ok ()

structure LoadControl where
  /-- Whether a run may go on. -/
  running : Bool := false
  /-- Whether the slot keeps a handle. -/
  handle : Bool := false
  /-- Whether a run has been started that has not ended. -/
  active : Bool := false
  /-- The workers of the last run that was started. -/
  workers : Nat := 0
  deriving DecidableEq, Repr

namespace LoadControl

def start (c : LoadControl) (r : LoadRequest) (queueCapacity : Nat) :
    Except ControlError LoadControl := do
  r.check queueCapacity
  if c.running then throw .alreadyRunning
  return { running := true, handle := true, active := true, workers := r.workers }

/-- Clears the flag, empties the slot and waits for the run to end. -/
def stop (c : LoadControl) : LoadControl :=
  { c with running := false, handle := false, active := c.active && !c.handle }

/-- A run that ends by itself clears the flag and leaves its handle in the slot. -/
def finish (c : LoadControl) : LoadControl :=
  if c.active then { c with running := false, active := false } else c

end LoadControl

end RequestMeter
