import RequestMeter.Proofs.Collector.Step

/-! # Runs of a collector

A run is a series of steps, with any ids in any order.  What it means for one request is said by
segments alone: the events of an id since its request was last completed or discarded.  The records that
a run completes are the folds of the segments that end.
-/
namespace RequestMeter.Collector

/-- The collector after some steps.  A step that fails is followed by the next one. -/
def run (c : Collector) (steps : List Step) : Collector := steps.foldl step c

def runNotices (c : Collector) : List Step → List Notice
  | [] => []
  | s :: rest => c.stepNotices s ++ runNotices (c.step s) rest

@[simp] theorem run_nil (c : Collector) : c.run [] = c := rfl

theorem run_concat (c : Collector) (before : List Step) (s : Step) :
    c.run (before ++ [s]) = (c.run before).step s := List.foldl_append

theorem runNotices_concat (c : Collector) (before : List Step) (s : Step) :
    c.runNotices (before ++ [s]) = c.runNotices before ++ (c.run before).stepNotices s := by
  induction before generalizing c with
  | nil => simp [runNotices]
  | cons t before ih =>
    simp only [List.cons_append, runNotices, ih, List.append_assoc]
    rfl

/-! ## Segments -/

/-- What a step makes of the events that are gathered for an id.  An end completes the request only
if it can be counted; else it is gathered like any other event. -/
def Step.gather (id : String) (es : List Event) : Step → List Event
  | .discard => []
  | .observe e =>
    if e.requestId = id ∧ e.stage ≠ .unknown then
      if (Draft.applyAll {} es).completes e then [] else es ++ [e]
    else es

/-- The events of an id since its request was last completed or discarded, unknown ones left out. -/
def segment (id : String) (steps : List Step) : List Event := steps.foldl (Step.gather id) []

theorem segment_concat (id : String) (before : List Step) (s : Step) :
    segment id (before ++ [s]) = s.gather id (segment id before) := List.foldl_append

def openDraft? (id : String) (steps : List Step) : Option Draft :=
  if segment id steps = [] then none else some (Draft.applyAll {} (segment id steps))

theorem openDraft?_eq_none_iff {id : String} {steps : List Step} :
    openDraft? id steps = none ↔ segment id steps = [] := by
  unfold openDraft?
  split <;> simp [*]

theorem getD_openDraft? (id : String) (steps : List Step) :
    (openDraft? id steps).getD {} = Draft.applyAll {} (segment id steps) := by
  unfold openDraft?
  split
  · rename_i h
    rw [h]
    rfl
  · rfl

/-! ## Completed records -/

/-- The record that a step completes after some other steps: the fold of the segment that it ends. -/
def completion? (before : List Step) : Step → Option Record
  | .observe e =>
    if (Draft.applyAll {} (segment e.requestId before)).completes e then
      some (Draft.applyAll {} (segment e.requestId before ++ [e])).record
    else none
  | .discard => none

def completedFrom (before : List Step) : List Step → List Record
  | [] => []
  | s :: rest => (completion? before s).toList ++ completedFrom (before ++ [s]) rest

/-- The records that a whole run completes. -/
def completed (steps : List Step) : List Record := completedFrom [] steps

theorem completedFrom_append (before xs ys : List Step) :
    completedFrom before (xs ++ ys) =
      completedFrom before xs ++ completedFrom (before ++ xs) ys := by
  induction xs generalizing before with
  | nil => simp [completedFrom]
  | cons s xs ih => simp [completedFrom, ih]

@[simp] theorem completed_nil : completed [] = [] := rfl

theorem completed_concat (before : List Step) (s : Step) :
    completed (before ++ [s]) = completed before ++ (completion? before s).toList := by
  simp [completed, completedFrom_append, completedFrom]

end RequestMeter.Collector
