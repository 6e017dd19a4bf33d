import Mathlib.Data.List.Induction
import RequestMeter.Proofs.Load.Step

/-! # Requests one after another

A request that comes when all others are answered, and takes its steps until it is answered too, does
what `LoadControl` says.  So whatever `LoadControl` does is one of the schedules of atomic steps, one
in which no two requests overlap.
-/
namespace RequestMeter.LoadControl

inductive Operation where
  | start (r : LoadRequest)
  | stop
  /-- The run that is active ends by itself. -/
  | finish

/-- Load control after one operation.  A start that fails changes nothing. -/
def after (queueCapacity : Nat) (c : LoadControl) : Operation → LoadControl
  | .start r => match c.start r queueCapacity with
    | .ok next => next
    | .error _ => c
  | .stop => c.stop
  | .finish => c.finish

namespace Interleaving

variable {queueCapacity : Nat} {s t : Interleaving} {c : LoadControl}

/-- All requests are answered, and flag, slot and active run are as `c` says. -/
structure Represents (s : Interleaving) (c : LoadControl) : Prop where
  answered : ∀ x ∈ s.tasks, ∃ result, x = .answered result
  running : s.running = c.running
  handle : s.slot.isSome = c.handle
  active : (∃ k, s.Active k) ↔ c.active = true
  kept : ∀ k, s.Active k → s.slot = some k
  started : ∀ k, s.slot = some k → k < s.runs.length
  clear : s.running = false → ∀ k, ¬ s.Active k

theorem represents_init : Represents {} {} := by
  constructor <;> simp [Active]

/-! ## The last request takes its steps -/

def withTask (s : Interleaving) (x : Task) : Interleaving := { s with tasks := s.tasks ++ [x] }

theorem setTask_withTask (s : Interleaving) (x y : Task) :
    (s.withTask x).setTask s.tasks.length y = s.withTask y := by
  simp [setTask, withTask]

theorem slotFree_withTask (h : Represents s c) {x : Task} (hx : x.holdsSlot = false) :
    (s.withTask x).slotFree = true := by
  rw [slotFree, List.all_eq_true]
  intro y hy
  rw [withTask, List.mem_append, List.mem_singleton] at hy
  cases hy with
  | inl hold =>
    rcases h.answered y hold with ⟨result, rfl⟩
    rfl
  | inr hnew => simp [hnew, hx]

theorem Represents.withTask (h : Represents s c) (result : Except ControlError Unit) :
    Represents (s.withTask (.answered result)) c where
  answered := by
    intro x hx
    rw [Interleaving.withTask, List.mem_append, List.mem_singleton] at hx
    exact hx.elim (h.answered x) fun hnew => ⟨result, hnew⟩
  running := h.running
  handle := h.handle
  active := h.active
  kept := h.kept
  started := h.started
  clear := h.clear

theorem steps?_proceed {u : Interleaving} {x y : Task} {i : Nat} (hi : s.tasks.length = i)
    (hstep : (s.withTask x).proceed queueCapacity i x = some (u.withTask y))
    (actions : List Action) :
    (s.withTask x).steps? queueCapacity (.proceed i :: actions) =
      (u.withTask y).steps? queueCapacity actions := by
  have hx : (s.withTask x).tasks[i]? = some x := by simp [withTask, ← hi]
  rw [steps?_cons, step?, hx]
  simp only [hstep, Option.bind_some]

/-! ## Starts -/

def withRun (s : Interleaving) (workers : Nat) : Interleaving where
  running := true
  slot := some s.runs.length
  tasks := s.tasks
  runs := s.runs ++ [RunPhase.working workers]

theorem Represents.withRun (h : Represents s c) (workers : Nat) (clear : c.running = false) :
    Represents (s.withRun workers)
      { running := true, handle := true, active := true, workers := workers } := by
  have honly : ∀ k, (s.withRun workers).Active k → k = s.runs.length := fun k hk =>
    ((active_spawn workers k).1 hk).resolve_right (h.clear (h.running.trans clear) k)
  have hnew : (s.withRun workers).Active s.runs.length :=
    (active_spawn workers s.runs.length).2 (.inl rfl)
  constructor
  · exact h.answered
  · rfl
  · rfl
  · exact ⟨fun _ => rfl, fun _ => ⟨s.runs.length, hnew⟩⟩
  · intro k hk
    exact congrArg some (honly k hk).symm
  · intro k hk
    cases hk
    simp [Interleaving.withRun]
  · intro hrunning
    cases hrunning

theorem steps?_start_rejected {r : LoadRequest} {e : ControlError}
    (hr : r.check queueCapacity = .error e) :
    s.steps? queueCapacity [.requestStart r, .proceed s.tasks.length] =
      some (s.withTask (.answered (.error e))) := by
  have hreject : (s.withTask (.start r)).proceed queueCapacity s.tasks.length (.start r) =
      some (s.withTask (.answered (.error e))) := by
    simp only [proceed, hr, setTask_withTask]
  rw [steps?_cons]
  change steps? queueCapacity (s.withTask (.start r)) _ = _
  rw [steps?_proceed rfl hreject]
  rfl

theorem steps?_claim (h : Represents s c) {r : LoadRequest} (hr : r.check queueCapacity = .ok ())
    (actions : List Action) :
    s.steps? queueCapacity
        (.requestStart r :: .proceed s.tasks.length :: .proceed s.tasks.length :: actions) =
      (s.withTask (.claiming r)).steps? queueCapacity actions := by
  have haccept : (s.withTask (.start r)).proceed queueCapacity s.tasks.length (.start r) =
      some (s.withTask (.admitted r)) := by
    simp only [proceed, hr, setTask_withTask]
  have hlock : (s.withTask (.admitted r)).proceed queueCapacity s.tasks.length (.admitted r) =
      some (s.withTask (.claiming r)) := by
    rw [proceed, if_pos (slotFree_withTask h rfl), setTask_withTask]
  rw [steps?_cons]
  change steps? queueCapacity (s.withTask (.start r)) _ = _
  rw [steps?_proceed rfl haccept, steps?_proceed rfl hlock]

theorem steps?_refused (queueCapacity : Nat) {r : LoadRequest} (set : s.running = true) :
    (s.withTask (.claiming r)).steps? queueCapacity [.proceed s.tasks.length] =
      some (s.withTask (.answered (.error .alreadyRunning))) := by
  have hrefuse : (s.withTask (.claiming r)).proceed queueCapacity s.tasks.length (.claiming r) =
      some (s.withTask (.answered (.error .alreadyRunning))) := by
    have hset : (s.withTask (.claiming r)).running = true := set
    rw [proceed, if_pos hset, setTask_withTask]
  rw [steps?_proceed rfl hrefuse]
  rfl

theorem steps?_granted (queueCapacity : Nat) {r : LoadRequest} (clear : s.running = false) :
    (s.withTask (.claiming r)).steps? queueCapacity
        (List.replicate 3 (.proceed s.tasks.length)) =
      some ((s.withRun r.workers).withTask (.answered (.ok ()))) := by
  let set : Interleaving := { s with running := true }
  let spawned : Interleaving := { set with runs := s.runs ++ [RunPhase.working r.workers] }
  have hgrant : (s.withTask (.claiming r)).proceed queueCapacity s.tasks.length (.claiming r) =
      some (set.withTask (.spawning r)) := by
    rw [proceed, if_neg (by simp [withTask, clear])]
    exact congrArg some (setTask_withTask set _ _)
  have hspawn : (set.withTask (.spawning r)).proceed queueCapacity s.tasks.length (.spawning r) =
      some (spawned.withTask (.storing s.runs.length)) :=
    congrArg some (setTask_withTask spawned _ _)
  have hstore : (spawned.withTask (.storing s.runs.length)).proceed queueCapacity s.tasks.length
      (.storing s.runs.length) = some ((s.withRun r.workers).withTask (.answered (.ok ()))) :=
    congrArg some (setTask_withTask (s.withRun r.workers) _ _)
  simp only [List.replicate]
  rw [steps?_proceed rfl hgrant, steps?_proceed rfl hspawn, steps?_proceed rfl hstore]
  rfl

/-- A start that goes all its steps while no other request does is answered as `start` says. -/
theorem Represents.start (h : Represents s c) (queueCapacity : Nat) (r : LoadRequest) :
    ∃ n t, s.steps? queueCapacity
        (.requestStart r :: List.replicate n (.proceed s.tasks.length)) = some t ∧
      Represents t (c.after queueCapacity (.start r)) ∧
      t.tasks[s.tasks.length]? =
        some (.answered ((c.start r queueCapacity).map fun _ => ())) := by
  cases hr : r.check queueCapacity with
  | error e =>
    have hstart : c.start r queueCapacity = .error e := by rw [LoadControl.start, hr]; rfl
    refine ⟨1, _, steps?_start_rejected hr, ?_, ?_⟩
    · rw [after, hstart]
      exact h.withTask _
    · simp [Interleaving.withTask, hstart, Except.map]
  | ok _ =>
    cases hrunning : c.running with
    | true =>
      have hstart : c.start r queueCapacity = .error .alreadyRunning := by
        rw [LoadControl.start, hr, hrunning]
        rfl
      have hrefused := steps?_refused queueCapacity (r := r) (h.running.trans hrunning)
      refine ⟨3, _, (steps?_claim h hr _).trans hrefused, ?_, ?_⟩
      · rw [after, hstart]
        exact h.withTask _
      · simp [Interleaving.withTask, hstart, Except.map]
    | false =>
      have hstart : c.start r queueCapacity =
          .ok { running := true, handle := true, active := true, workers := r.workers } := by
        rw [LoadControl.start, hr, hrunning]
        rfl
      have hgranted := steps?_granted queueCapacity (r := r) (h.running.trans hrunning)
      refine ⟨5, _, (steps?_claim h hr _).trans hgranted, ?_, ?_⟩
      · rw [after, hstart]
        exact (h.withRun r.workers hrunning).withTask _
      · simp [Interleaving.withTask, Interleaving.withRun, hstart, Except.map]

/-! ## Runs that end -/

def withExit (s : Interleaving) (run : Nat) : Interleaving :=
  { s with running := false }.setRun run .exited

/-- A run of `n` workers ends: each of them leaves, and the run exits. -/
def ending (run n : Nat) : List Action := List.replicate n (.leave run) ++ [.exit run]

theorem steps?_ending {run n : Nat} (hp : s.runs[run]? = some (.working n)) :
    s.steps? queueCapacity (ending run n) = some (s.withExit run) := by
  have hlt : run < s.runs.length := (List.getElem?_eq_some_iff.1 hp).1
  induction n generalizing s with
  | zero =>
    rw [ending, List.replicate_zero, List.nil_append, steps?_cons, step?, hp]
    rfl
  | succ n ih =>
    have hnext : (s.setRun run (.working n)).runs[run]? = some (.working n) := by
      rw [getElem?_setRun hp, if_pos rfl]
    have hrest := ih hnext (by simpa [setRun] using hlt)
    rw [ending, List.replicate_succ, List.cons_append, steps?_cons, step?, hp]
    change steps? queueCapacity (s.setRun run (.working n)) (ending run n) = _
    rw [hrest, withExit, withExit, setRun, setRun, setRun]
    simp only [List.set_set]

theorem Represents.withExit (h : Represents s c) {run n : Nat}
    (hp : s.runs[run]? = some (.working n)) :
    Represents (s.withExit run) { c with running := false, active := false } := by
  have hslot : s.slot = some run := h.kept run ⟨n, hp⟩
  have hnone : ∀ k, ¬ (s.withExit run).Active k := by
    rintro k ⟨m, hm⟩
    have hk : (s.withExit run).runs[k]? = if run = k then some .exited else s.runs[k]? :=
      getElem?_setRun hp .exited k
    rw [hk] at hm
    split at hm
    next => cases hm
    next hne =>
      have hsame : s.slot = some k := h.kept k ⟨m, hm⟩
      exact hne (Option.some.inj (hslot.symm.trans hsame))
  constructor
  · exact h.answered
  · rfl
  · exact h.handle
  · exact ⟨fun ⟨k, hk⟩ => absurd hk (hnone k), fun hactive => by cases hactive⟩
  · exact fun k hk => absurd hk (hnone k)
  · intro k hk
    simpa [Interleaving.withExit, setRun] using h.started k hk
  · exact fun _ => hnone

/-- The active run ends by itself, if there is one. -/
theorem Represents.finish (h : Represents s c) (queueCapacity : Nat) :
    ∃ actions t, s.steps? queueCapacity actions = some t ∧
      Represents t (c.after queueCapacity .finish) := by
  by_cases hactive : c.active = true
  · rcases h.active.2 hactive with ⟨run, n, hp⟩
    refine ⟨ending run n, _, steps?_ending hp, ?_⟩
    rw [after, LoadControl.finish, if_pos hactive]
    exact h.withExit hp
  · refine ⟨[], s, rfl, ?_⟩
    rw [after, LoadControl.finish, if_neg hactive]
    exact h

/-! ## Stops -/

def released (s : Interleaving) : Interleaving := { s with running := false, slot := none }

theorem Represents.released (h : Represents s c) (hidle : ∀ k, ¬ s.Active k) :
    Represents s.released c.stop := by
  have hactive : c.active = false := by
    rw [Bool.eq_false_iff]
    intro hc
    rcases h.active.2 hc with ⟨k, hk⟩
    exact hidle k hk
  constructor
  · exact h.answered
  · rfl
  · rfl
  · exact ⟨fun ⟨k, hk⟩ => absurd hk (hidle k), fun hc => by simp [LoadControl.stop, hactive] at hc⟩
  · exact fun k hk => absurd hk (hidle k)
  · intro k hk
    cases hk
  · exact fun _ => hidle

theorem steps?_clear (s : Interleaving) (actions : List Action) :
    s.steps? queueCapacity (.requestStop :: .proceed s.tasks.length :: actions) =
      steps? queueCapacity ({ s with running := false }.withTask .stopping) actions := by
  let cleared : Interleaving := { s with running := false }
  have hclear : (s.withTask .stop).proceed queueCapacity s.tasks.length .stop =
      some (cleared.withTask .stopping) :=
    congrArg some (setTask_withTask cleared _ _)
  rw [steps?_cons]
  change steps? queueCapacity (s.withTask .stop) _ = _
  rw [steps?_proceed rfl hclear]

theorem steps?_idle (h : Represents s c) (empty : s.slot = none) :
    steps? queueCapacity ({ s with running := false }.withTask .stopping)
        [.proceed s.tasks.length] =
      some (s.released.withTask (.answered (.ok ()))) := by
  let cleared : Interleaving := { s with running := false }
  have hsame : cleared = s.released := by simp [cleared, released, empty]
  have hfree : (cleared.withTask .stopping).slotFree = true := slotFree_withTask h (s := s) rfl
  have hnone : (cleared.withTask .stopping).slot = none := empty
  have hidle : (cleared.withTask .stopping).proceed queueCapacity s.tasks.length .stopping =
      some (s.released.withTask (.answered (.ok ()))) := by
    rw [proceed, if_pos hfree, hnone, ← hsame]
    exact congrArg some (setTask_withTask cleared _ _)
  rw [steps?_proceed rfl hidle]
  rfl

theorem steps?_take (queueCapacity : Nat) (h : Represents s c) {run : Nat} (kept : s.slot = some run)
    (actions : List Action) :
    steps? queueCapacity ({ s with running := false }.withTask .stopping)
        (.proceed s.tasks.length :: actions) =
      (s.released.withTask (.awaiting run)).steps? queueCapacity actions := by
  let cleared : Interleaving := { s with running := false }
  have hfree : (cleared.withTask .stopping).slotFree = true := slotFree_withTask h (s := s) rfl
  have hkept : (cleared.withTask .stopping).slot = some run := kept
  have htake : (cleared.withTask .stopping).proceed queueCapacity s.tasks.length .stopping =
      some (s.released.withTask (.awaiting run)) := by
    rw [proceed, if_pos hfree, hkept]
    exact congrArg some (setTask_withTask s.released _ _)
  rw [steps?_proceed rfl htake]

theorem steps?_awaited (queueCapacity : Nat) {run : Nat} (exited : s.runs[run]? = some .exited) :
    (s.withTask (.awaiting run)).steps? queueCapacity [.proceed s.tasks.length] =
      some (s.withTask (.answered (.ok ()))) := by
  have hexited : (s.withTask (.awaiting run)).runs[run]? = some .exited := exited
  have hawaited : (s.withTask (.awaiting run)).proceed queueCapacity s.tasks.length
      (.awaiting run) = some (s.withTask (.answered (.ok ()))) := by
    rw [proceed, if_pos hexited, setTask_withTask]
  rw [steps?_proceed rfl hawaited]
  rfl

/-- A stop that waits for a run is answered when the run has ended. -/
theorem steps?_awaited_ending (queueCapacity : Nat) {run n : Nat}
    (hp : s.runs[run]? = some (.working n)) :
    (s.withTask (.awaiting run)).steps? queueCapacity
        (ending run n ++ [.proceed s.tasks.length]) =
      some ((s.withExit run).withTask (.answered (.ok ()))) := by
  have hended : (s.withTask (.awaiting run)).steps? queueCapacity (ending run n) =
      some ((s.withExit run).withTask (.awaiting run)) := steps?_ending hp
  have hexited : (s.withExit run).runs[run]? = some .exited :=
    (getElem?_setRun hp .exited run).trans (if_pos rfl)
  rw [steps?_append, hended]
  exact steps?_awaited queueCapacity hexited

/-- A stop that goes all its steps while no other request does leaves what `stop` says.  The run that
it waits for ends in between. -/
theorem Represents.stop (h : Represents s c) (queueCapacity : Nat) :
    ∃ actions t, s.steps? queueCapacity
        (.requestStop :: .proceed s.tasks.length :: .proceed s.tasks.length :: actions) = some t ∧
      Represents t (c.after queueCapacity .stop) ∧
      t.tasks[s.tasks.length]? = some (.answered (.ok ())) := by
  cases hslot : s.slot with
  | none =>
    have hidle : ∀ k, ¬ s.Active k := by
      intro k hk
      cases hslot.symm.trans (h.kept k hk)
    refine ⟨[], _, (steps?_clear s _).trans (steps?_idle h hslot), ?_, ?_⟩
    · exact (h.released hidle).withTask _
    · simp [Interleaving.withTask, Interleaving.released]
  | some run =>
    have hlt : run < s.runs.length := h.started run hslot
    have htaken := steps?_take queueCapacity h hslot
    cases hp : s.runs.get ⟨run, hlt⟩ with
    | exited =>
      have hrun : s.released.runs[run]? = some .exited := by
        rw [← hp]
        exact List.getElem?_eq_getElem hlt
      have hidle : ∀ k, ¬ s.Active k := by
        rintro k ⟨n, hn⟩
        cases hslot.symm.trans (h.kept k ⟨n, hn⟩)
        cases hrun.symm.trans hn
      refine ⟨[.proceed s.tasks.length], _, (steps?_clear s _).trans ((htaken _).trans
        (steps?_awaited queueCapacity hrun)), ?_, ?_⟩
      · exact (h.released hidle).withTask _
      · simp [Interleaving.withTask, Interleaving.released]
    | working n =>
      have hrun : s.runs[run]? = some (.working n) := by
        rw [← hp]
        exact List.getElem?_eq_getElem hlt
      have hhandle : c.handle = true := by
        rw [← h.handle, hslot]
        rfl
      -- The run may as well end before the stop takes its handle.
      have hended : Represents (s.withExit run) { c with running := false, active := false } :=
        h.withExit hrun
      have hreleased : Represents (s.withExit run).released c.stop := by
        have hidle : ∀ k, ¬ (s.withExit run).Active k := hended.clear rfl
        simpa [LoadControl.stop, hhandle] using hended.released hidle
      refine ⟨ending run n ++ [.proceed s.tasks.length], _, (steps?_clear s _).trans
        ((htaken _).trans (steps?_awaited_ending queueCapacity (s := s.released) hrun)), ?_, ?_⟩
      · exact hreleased.withTask _
      · simp [Interleaving.withTask, Interleaving.released, Interleaving.withExit, setRun]

/-- Every series of operations, one at a time, is a schedule that leaves what `LoadControl` says. -/
theorem exists_steps?_represents (queueCapacity : Nat) (operations : List Operation) :
    ∃ actions t, steps? queueCapacity {} actions = some t ∧
      Represents t (operations.foldl (after queueCapacity) {}) := by
  induction operations using List.reverseRecOn with
  | nil => exact ⟨[], {}, rfl, represents_init⟩
  | append_singleton operations o ih =>
    rcases ih with ⟨before, s, hbefore, h⟩
    have hnext : ∃ actions t, s.steps? queueCapacity actions = some t ∧
        Represents t ((operations.foldl (after queueCapacity) {}).after queueCapacity o) := by
      cases o with
      | start r =>
        rcases h.start queueCapacity r with ⟨n, t, ht, hrep, -⟩
        exact ⟨_, t, ht, hrep⟩
      | stop =>
        rcases h.stop queueCapacity with ⟨actions, t, ht, hrep, -⟩
        exact ⟨_, t, ht, hrep⟩
      | finish => exact h.finish queueCapacity
    rcases hnext with ⟨actions, t, ht, hrep⟩
    refine ⟨before ++ actions, t, ?_, ?_⟩
    · rw [steps?_append, hbefore]
      exact ht
    · rw [List.foldl_append]
      exact hrep

end Interleaving

end RequestMeter.LoadControl
