import RequestMeter.Load.Control

/-! # Load control step by step

Requests to start and to stop load, and the runs they start, act in atomic steps that interleave in
any order.  They share the flag that says that a run may go on, and the slot for the handle of a run,
which one request at a time can hold.  Requests handled one after another do what `LoadControl` says.
-/
namespace RequestMeter.LoadControl

/-- How far a request has come. -/
inductive Task where
  /-- A start that has yet to be checked. -/
  | start (r : LoadRequest)
  /-- A start within the limits, which waits for the slot. -/
  | admitted (r : LoadRequest)
  /-- A start that holds the slot and has yet to set the flag. -/
  | claiming (r : LoadRequest)
  /-- A start that holds the slot and has set the flag. -/
  | spawning (r : LoadRequest)
  /-- A start that holds the slot and has started a run. -/
  | storing (run : Nat)
  /-- A stop that has yet to clear the flag. -/
  | stop
  /-- A stop that waits for the slot. -/
  | stopping
  /-- A stop that waits for the run whose handle it took. -/
  | awaiting (run : Nat)
  | answered (result : Except ControlError Unit)

def Task.holdsSlot : Task → Bool
  | claiming _ | spawning _ | storing _ => true
  | _ => false

inductive RunPhase where
  /-- So many workers have yet to leave. -/
  | working (workers : Nat)
  | exited
  deriving DecidableEq, Repr

structure Interleaving where
  /-- Whether a run may go on. -/
  running : Bool := false
  /-- The number of the run whose handle is kept. -/
  slot : Option Nat := none
  /-- All requests, in the order in which they came. -/
  tasks : List Task := []
  /-- All runs, in the order in which they were started. -/
  runs : List RunPhase := []

inductive Action where
  /-- A request comes. -/
  | requestStart (r : LoadRequest)
  | requestStop
  /-- A request goes one step on. -/
  | proceed (task : Nat)
  /-- A worker of a run ends its last transaction and leaves, because the flag is cleared or its time
  is up. -/
  | leave (run : Nat)
  /-- A run without workers clears the flag and exits. -/
  | exit (run : Nat)

namespace Interleaving

def setTask (s : Interleaving) (i : Nat) (t : Task) : Interleaving :=
  { s with tasks := s.tasks.set i t }

def setRun (s : Interleaving) (i : Nat) (p : RunPhase) : Interleaving :=
  { s with runs := s.runs.set i p }

def slotFree (s : Interleaving) : Bool := s.tasks.all fun t => !t.holdsSlot

/-- One step of the request `i`, which has come as far as `t`; none while it has to wait. -/
def proceed (queueCapacity : Nat) (s : Interleaving) (i : Nat) : Task → Option Interleaving
  | .start r => match r.check queueCapacity with
    | .ok () => some (s.setTask i (.admitted r))
    | .error e => some (s.setTask i (.answered (.error e)))
  | .admitted r => if s.slotFree then some (s.setTask i (.claiming r)) else none
  | .claiming r =>
    if s.running then some (s.setTask i (.answered (.error .alreadyRunning)))
    else some ({ s with running := true }.setTask i (.spawning r))
  | .spawning r =>
    some ({ s with runs := s.runs ++ [RunPhase.working r.workers] }.setTask i (.storing s.runs.length))
  | .storing run => some ({ s with slot := some run }.setTask i (.answered (.ok ())))
  | .stop => some ({ s with running := false }.setTask i .stopping)
  | .stopping =>
    if s.slotFree then
      match s.slot with
      | some run => some ({ s with slot := none }.setTask i (.awaiting run))
      | none => some (s.setTask i (.answered (.ok ())))
    else none
  | .awaiting run =>
    if s.runs[run]? = some .exited then some (s.setTask i (.answered (.ok ()))) else none
  | .answered _ => none

def step? (queueCapacity : Nat) (s : Interleaving) : Action → Option Interleaving
  | .requestStart r => some { s with tasks := s.tasks ++ [.start r] }
  | .requestStop => some { s with tasks := s.tasks ++ [.stop] }
  | .proceed i => match s.tasks[i]? with
    | some t => s.proceed queueCapacity i t
    | none => none
  | .leave run => match s.runs[run]? with
    | some (.working (n + 1)) => some (s.setRun run (.working n))
    | _ => none
  | .exit run => match s.runs[run]? with
    | some (.working 0) => some ({ s with running := false }.setRun run .exited)
    | _ => none

def steps? (queueCapacity : Nat) (s : Interleaving) (actions : List Action) : Option Interleaving :=
  actions.foldlM (step? queueCapacity) s

/-- The number of runs that have not exited. -/
def activeRuns (s : Interleaving) : Nat := s.runs.countP (· ≠ .exited)

end Interleaving

end RequestMeter.LoadControl
