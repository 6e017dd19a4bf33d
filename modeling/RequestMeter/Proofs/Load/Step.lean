import Mathlib.Data.List.Basic
import RequestMeter.Load.Interleaving

/-! # What a step of load control can do

`Step` lists the atomic steps with their guards, one rule for each that changes the flag, the slot or a
run.  A step that moves a request and nothing else is a `Turn`.
-/
namespace RequestMeter.LoadControl

/-- Whether a start has set the flag for a run that it has yet to start. -/
def Task.isSpawning : Task → Bool
  | spawning _ => true
  | _ => false

def Task.isStopping : Task → Bool
  | stopping | awaiting _ => true
  | _ => false

namespace Interleaving

variable {queueCapacity : Nat} {s t : Interleaving} {a : Action}

inductive Turn (queueCapacity : Nat) (s : Interleaving) : Task → Task → Prop where
  | accept (r : LoadRequest) (within : r.check queueCapacity = .ok ()) :
      Turn queueCapacity s (.start r) (.admitted r)
  | reject (r : LoadRequest) (e : ControlError) (beyond : r.check queueCapacity = .error e) :
      Turn queueCapacity s (.start r) (.answered (.error e))
  | lock (r : LoadRequest) (free : s.slotFree = true) :
      Turn queueCapacity s (.admitted r) (.claiming r)
  | refuse (r : LoadRequest) (set : s.running = true) :
      Turn queueCapacity s (.claiming r) (.answered (.error .alreadyRunning))
  | idle (free : s.slotFree = true) (empty : s.slot = none) :
      Turn queueCapacity s .stopping (.answered (.ok ()))
  | awaited (run : Nat) (exited : s.runs[run]? = some .exited) :
      Turn queueCapacity s (.awaiting run) (.answered (.ok ()))

inductive Step (queueCapacity : Nat) (s : Interleaving) : Action → Interleaving → Prop where
  | requestStart (r : LoadRequest) :
      Step queueCapacity s (.requestStart r) { s with tasks := s.tasks ++ [.start r] }
  | requestStop : Step queueCapacity s .requestStop { s with tasks := s.tasks ++ [.stop] }
  | turn {i : Nat} {x y : Task} (hx : s.tasks[i]? = some x) (go : Turn queueCapacity s x y) :
      Step queueCapacity s (.proceed i) (s.setTask i y)
  | grant {i : Nat} (r : LoadRequest) (hx : s.tasks[i]? = some (.claiming r))
      (clear : s.running = false) :
      Step queueCapacity s (.proceed i) ({ s with running := true }.setTask i (.spawning r))
  | spawn {i : Nat} (r : LoadRequest) (hx : s.tasks[i]? = some (.spawning r)) :
      Step queueCapacity s (.proceed i)
        ({ s with runs := s.runs ++ [RunPhase.working r.workers] }.setTask i
          (.storing s.runs.length))
  | store {i : Nat} (run : Nat) (hx : s.tasks[i]? = some (.storing run)) :
      Step queueCapacity s (.proceed i) ({ s with slot := some run }.setTask i (.answered (.ok ())))
  | clear {i : Nat} (hx : s.tasks[i]? = some .stop) :
      Step queueCapacity s (.proceed i) ({ s with running := false }.setTask i .stopping)
  | take {i : Nat} (run : Nat) (hx : s.tasks[i]? = some .stopping) (free : s.slotFree = true)
      (kept : s.slot = some run) :
      Step queueCapacity s (.proceed i) ({ s with slot := none }.setTask i (.awaiting run))
  | leave (run n : Nat) (hp : s.runs[run]? = some (.working (n + 1))) :
      Step queueCapacity s (.leave run) (s.setRun run (.working n))
  | exit (run : Nat) (hp : s.runs[run]? = some (.working 0)) :
      Step queueCapacity s (.exit run) ({ s with running := false }.setRun run .exited)

theorem step_of_proceed {i : Nat} {x : Task} (hx : s.tasks[i]? = some x)
    (h : s.proceed queueCapacity i x = some t) : Step queueCapacity s (.proceed i) t := by
  cases x with
  | start r =>
    simp only [proceed] at h
    split at h
    next hr =>
      cases h
      exact .turn hx (.accept r hr)
    next e hr =>
      cases h
      exact .turn hx (.reject r e hr)
  | admitted r =>
    simp only [proceed, Option.ite_none_right_eq_some] at h
    cases h.2
    exact .turn hx (.lock r h.1)
  | claiming r =>
    simp only [proceed] at h
    split at h
    next hs =>
      cases h
      exact .turn hx (.refuse r hs)
    next hs =>
      cases h
      exact .grant r hx (by simpa using hs)
  | spawning r =>
    cases h
    exact .spawn r hx
  | storing run =>
    cases h
    exact .store run hx
  | stop =>
    cases h
    exact .clear hx
  | stopping =>
    simp only [proceed, Option.ite_none_right_eq_some] at h
    rcases h with ⟨hf, h⟩
    split at h
    next run hs =>
      cases h
      exact .take run hx hf hs
    next hs =>
      cases h
      exact .turn hx (.idle hf hs)
  | awaiting run =>
    simp only [proceed, Option.ite_none_right_eq_some] at h
    cases h.2
    exact .turn hx (.awaited run h.1)
  | answered result => cases h

/-- Every possible step follows one of the rules. -/
theorem step_of_step? (h : s.step? queueCapacity a = some t) : Step queueCapacity s a t := by
  cases a with
  | requestStart r =>
    cases h
    exact .requestStart r
  | requestStop =>
    cases h
    exact .requestStop
  | proceed i =>
    simp only [step?] at h
    split at h
    next x hx => exact step_of_proceed hx h
    next => cases h
  | leave run =>
    simp only [step?] at h
    split at h
    next n hn =>
      cases h
      exact .leave run n hn
    next => cases h
  | exit run =>
    simp only [step?] at h
    split at h
    next hn =>
      cases h
      exact .exit run hn
    next => cases h

theorem steps?_cons (s : Interleaving) (a : Action) (actions : List Action) :
    s.steps? queueCapacity (a :: actions) =
      (s.step? queueCapacity a).bind (steps? queueCapacity · actions) := by
  rw [steps?, List.foldlM_cons]
  rfl

theorem steps?_append (s : Interleaving) (before rest : List Action) :
    s.steps? queueCapacity (before ++ rest) =
      (s.steps? queueCapacity before).bind (steps? queueCapacity · rest) := by
  rw [steps?, List.foldlM_append]
  rfl

theorem steps?_concat_eq_some {actions : List Action} :
    s.steps? queueCapacity (actions ++ [a]) = some t ↔
      ∃ u, s.steps? queueCapacity actions = some u ∧ u.step? queueCapacity a = some t := by
  rw [steps?_append, Option.bind_eq_some_iff]
  simp only [steps?_cons, Option.bind_eq_some_iff]
  simp [steps?]

/-! ## What a step leaves as it was -/

theorem getElem?_setTask {i : Nat} {x : Task} (hx : s.tasks[i]? = some x) (y : Task) (j : Nat) :
    (s.setTask i y).tasks[j]? = if i = j then some y else s.tasks[j]? := by
  have hi : i < s.tasks.length := (List.getElem?_eq_some_iff.1 hx).1
  simp [setTask, List.getElem?_set, hi]

theorem mem_setTask_of_ne {i : Nat} {x z : Task} (hx : s.tasks[i]? = some x) (y : Task)
    (hz : z ∈ s.tasks) (hne : z ≠ x) : z ∈ (s.setTask i y).tasks := by
  rcases List.mem_iff_getElem?.1 hz with ⟨j, hj⟩
  have hij : i ≠ j := by
    rintro rfl
    exact hne (Option.some.inj (hj.symm.trans hx))
  rw [List.mem_iff_getElem?]
  use j
  rw [getElem?_setTask hx, if_neg hij, hj]

theorem mem_setTask {i : Nat} {y z : Task} (hz : z ∈ (s.setTask i y).tasks) :
    z ∈ s.tasks ∨ z = y :=
  List.mem_or_eq_of_mem_set hz

theorem getElem?_setRun {run : Nat} {p : RunPhase} (hp : s.runs[run]? = some p) (p' : RunPhase)
    (k : Nat) : (s.setRun run p').runs[k]? = if run = k then some p' else s.runs[k]? := by
  have hr : run < s.runs.length := (List.getElem?_eq_some_iff.1 hp).1
  simp [setRun, List.getElem?_set, hr]

def Active (s : Interleaving) (k : Nat) : Prop := ∃ n, s.runs[k]? = some (.working n)

theorem active_spawn (workers k : Nat) :
    Active { s with runs := s.runs ++ [RunPhase.working workers] } k ↔
      k = s.runs.length ∨ s.Active k := by
  simp only [Active]
  by_cases hk : k < s.runs.length
  · simp [List.getElem?_append_left hk, Nat.ne_of_lt hk]
  · by_cases he : k = s.runs.length
    · simp [he]
    · have hnone : s.runs[k]? = none := List.getElem?_eq_none (by omega)
      have hpast : (s.runs ++ [RunPhase.working workers])[k]? = none :=
        List.getElem?_eq_none (by rw [List.length_append, List.length_singleton]; omega)
      simp [hnone, hpast, he]

theorem active_leave {run n : Nat} (hp : s.runs[run]? = some (.working (n + 1))) (k : Nat) :
    (s.setRun run (.working n)).Active k ↔ s.Active k := by
  simp only [Active, getElem?_setRun hp]
  split
  next h => simp [← h, hp]
  next => rfl

theorem active_exit {run : Nat} (hp : s.runs[run]? = some (.working 0)) (k : Nat) :
    (s.setRun run .exited).Active k ↔ k ≠ run ∧ s.Active k := by
  simp only [Active, getElem?_setRun hp]
  split
  next h => simp [h]
  next h => simp [Ne.symm h]

theorem activeRuns_eq_zero_iff : s.activeRuns = 0 ↔ ∀ k, ¬ s.Active k := by
  simp only [activeRuns, List.countP_eq_zero, Active, List.mem_iff_getElem?]
  constructor
  · rintro h k ⟨n, hn⟩
    simpa using h _ ⟨k, hn⟩
  · rintro h p ⟨k, hk⟩
    cases p with
    | working n => exact absurd ⟨n, hk⟩ (h k)
    | exited => simp

/-! ## The flag and the run it is set for -/

/-- The number of runs that the flag has been set for, one that is yet to be started included. -/
def granted (s : Interleaving) : Nat := s.runs.length + s.tasks.countP Task.isSpawning

theorem Turn.isSpawning {x y : Task} (h : Turn queueCapacity s x y) :
    x.isSpawning = false ∧ y.isSpawning = false := by
  cases h <;> exact ⟨rfl, rfl⟩

end Interleaving

end RequestMeter.LoadControl
