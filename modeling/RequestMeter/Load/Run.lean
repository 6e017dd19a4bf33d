import RequestMeter.Load.Traffic
import RequestMeter.Limit

/-! # Load runs

Workers take turns, one transaction a turn.  A worker goes on while the run may and its own time is
not up; the run may no longer once enough transactions have ended.
-/
namespace RequestMeter.Traffic

structure Worker where
  done : Nat := 0
  elapsedMs : Nat := 0
  deriving DecidableEq, Repr

/-- What bounds a run. -/
structure Limits where
  durationSecs : Nat
  /-- Ended transactions after which the run may not go on. -/
  transactions : Nat
  /-- Whether events can be sent; a worker that cannot send ends. -/
  busOpen : Bool := true
  deriving DecidableEq, Repr

/-- The second at which a run ends that begins at another one; the clock must reach it. -/
def Limits.deadline (l : Limits) (begins : Nat) : Except HostLimit Nat := do
  HostLimit.clock.check (begins + l.durationSecs)
  return begins + l.durationSecs

structure LoadRun where
  running : Bool
  workers : List Worker
  /-- The transactions sent, the last one first. -/
  sent : List (List Event) := []

namespace LoadRun

def start (running : Bool) (workers : Nat) : LoadRun :=
  { running, workers := List.replicate workers {} }

def goesOn (l : Limits) (running : Bool) (w : Worker) : Bool :=
  running && l.busOpen && w.elapsedMs < l.durationSecs * 1000

/-- The turns of some workers.  `draw` gives the n-th transaction and its service time. -/
def turns (l : Limits) (draw : Nat → Draw × Nat) :
    Bool → List (List Event) → List Worker → LoadRun
  | running, sent, [] => { running, workers := [], sent }
  | running, sent, w :: ws =>
    if goesOn l running w then
      let (d, ms) := draw sent.length
      let sent := transaction d :: sent
      let r := turns l draw (sent.length < l.transactions) sent ws
      { r with workers := ⟨w.done + 1, w.elapsedMs + ms⟩ :: r.workers }
    else
      let r := turns l draw running sent ws
      { r with workers := w :: r.workers }

def round (l : Limits) (draw : Nat → Draw × Nat) (r : LoadRun) : LoadRun :=
  turns l draw r.running r.sent r.workers

def rounds (l : Limits) (draw : Nat → Draw × Nat) : Nat → LoadRun → LoadRun
  | 0, r => r
  | n + 1, r => rounds l draw n (r.round l draw)

/-- A whole run.  Every round in which a worker goes on ends a transaction, so one round more than
there are transactions to wait for suffices; at the end the flag is cleared. -/
def complete (l : Limits) (draw : Nat → Draw × Nat) (r : LoadRun) : LoadRun :=
  { rounds l draw (l.transactions + 1) r with running := false }

/-- A whole run that begins at a second of the clock.  The deadline is fixed before a worker takes
its first turn. -/
def run (l : Limits) (draw : Nat → Draw × Nat) (begins : Nat) (r : LoadRun) :
    Except HostLimit LoadRun := do
  discard (l.deadline begins)
  return r.complete l draw

end LoadRun

end RequestMeter.Traffic
