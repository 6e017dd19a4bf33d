import RequestMeter.Proofs.Load.Control

/-! # Schedules without overlap

In a serial schedule a request comes only when all others are answered, while workers leave and runs
exit at any moment.  Whatever happens along such a schedule is a series of operations of
`LoadControl`: the same requests in the same order with the same answers, and runs that end in
between.
-/
namespace RequestMeter.LoadControl

/-- What a request is answered; a run that ends by itself is none. -/
def answer? (queueCapacity : Nat) (c : LoadControl) : Operation → Option (Except ControlError Unit)
  | .start r => some ((c.start r queueCapacity).map fun _ => ())
  | .stop => some (.ok ())
  | .finish => none

def answers (queueCapacity : Nat) : LoadControl → List Operation → List (Except ControlError Unit)
  | _, [] => []
  | c, o :: os =>
    (c.answer? queueCapacity o).toList ++ answers queueCapacity (c.after queueCapacity o) os

def Operation.isRequest : Operation → Bool
  | start _ | stop => true
  | finish => false

def Action.request? : Action → Option Operation
  | requestStart r => some (.start r)
  | requestStop => some .stop
  | _ => none

theorem answers_concat (queueCapacity : Nat) (c : LoadControl) (os : List Operation)
    (o : Operation) :
    answers queueCapacity c (os ++ [o]) = answers queueCapacity c os ++
      ((os.foldl (after queueCapacity) c).answer? queueCapacity o).toList := by
  induction os generalizing c with
  | nil => simp [answers]
  | cons first os ih => simp [answers, ih]

namespace Interleaving

variable {queueCapacity : Nat} {s t : Interleaving} {c : LoadControl} {a : Action}
  {actions : List Action}

def Quiet (s : Interleaving) : Prop := ∀ x ∈ s.tasks, ∃ result, x = .answered result

instance (x : Task) : Decidable (∃ result, x = .answered result) :=
  match x with
  | .answered result => isTrue ⟨result, rfl⟩
  | .start _ | .admitted _ | .claiming _ | .spawning _ | .storing _ | .stop | .stopping
  | .awaiting _ => isFalse nofun

instance (s : Interleaving) : Decidable s.Quiet := inferInstanceAs (Decidable (∀ x ∈ s.tasks, _))

/-- Along these actions a request comes only when all others are answered. -/
def Serial (queueCapacity : Nat) : Interleaving → List Action → Prop
  | _, [] => True
  | s, a :: actions => (a.request?.isSome → s.Quiet) ∧
    ∀ t ∈ s.step? queueCapacity a, Serial queueCapacity t actions

instance decidableSerial (queueCapacity : Nat) :
    (s : Interleaving) → (actions : List Action) → Decidable (Serial queueCapacity s actions)
  | _, [] => inferInstanceAs (Decidable True)
  | s, a :: actions =>
    have := fun t => decidableSerial queueCapacity t actions
    inferInstanceAs (Decidable ((a.request?.isSome → s.Quiet) ∧
      ∀ t ∈ s.step? queueCapacity a, Serial queueCapacity t actions))

/-! ## Workers and runs that leave -/

theorem Represents.leave (h : Represents s c) {run n : Nat}
    (hp : s.runs[run]? = some (.working (n + 1))) :
    Represents (s.setRun run (.working n)) c where
  answered := h.answered
  running := h.running
  handle := h.handle
  active := (exists_congr (active_leave hp)).trans h.active
  kept := fun k hk => h.kept k ((active_leave hp k).1 hk)
  started := fun k hk => by simpa [setRun] using h.started k hk
  clear := fun hclear k hk => h.clear hclear k ((active_leave hp k).1 hk)

theorem Represents.exit (h : Represents s c) (queueCapacity : Nat) {run : Nat}
    (hp : s.runs[run]? = some (.working 0)) :
    Represents (s.withExit run) (c.after queueCapacity .finish) := by
  have hactive : c.active = true := h.active.1 ⟨run, 0, hp⟩
  rw [after, LoadControl.finish, if_pos hactive]
  exact h.withExit hp

/-! ## A request that is under way -/

/-- How far a request has come beside the answered ones, and what load control is without it.  A
stop takes effect with its answer, though the flag is cleared before. -/
inductive Underway (queueCapacity : Nat) (s : Interleaving) (c : LoadControl) :
    Task → Operation → Prop where
  | start (r : LoadRequest) (rep : Represents s c) :
      Underway queueCapacity s c (.start r) (.start r)
  | admitted (r : LoadRequest) (within : r.check queueCapacity = .ok ()) (rep : Represents s c) :
      Underway queueCapacity s c (.admitted r) (.start r)
  | claiming (r : LoadRequest) (within : r.check queueCapacity = .ok ()) (rep : Represents s c) :
      Underway queueCapacity s c (.claiming r) (.start r)
  | spawning (r : LoadRequest) (within : r.check queueCapacity = .ok ()) (set : s.running = true)
      (clear : c.running = false) (rep : Represents { s with running := false } c) :
      Underway queueCapacity s c (.spawning r) (.start r)
  | stop (rep : Represents s c) : Underway queueCapacity s c .stop .stop
  | stopping (clear : s.running = false) (rep : Represents { s with running := c.running } c) :
      Underway queueCapacity s c .stopping .stop
  | awaiting (run : Nat) (clear : s.running = false) (empty : s.slot = none)
      (rep : Represents { s with running := c.running, slot := some run } c) :
      Underway queueCapacity s c (.awaiting run) .stop

/-- What a state shows of some operations: all requests among them, and at most one more that is
under way.  A start takes effect when it starts its run, before its answer. -/
inductive Shows (queueCapacity : Nat) (os : List Operation) :
    List Operation → Interleaving → Prop where
  | quiet {s : Interleaving}
      (given : s.tasks = (answers queueCapacity {} os).map .answered)
      (rep : Represents s (os.foldl (after queueCapacity) {})) :
      Shows queueCapacity os (os.filter Operation.isRequest) s
  | underway {s : Interleaving} {x : Task} {o : Operation}
      (given : s.tasks = (answers queueCapacity {} os).map .answered)
      (way : Underway queueCapacity s (os.foldl (after queueCapacity) {}) x o) :
      Shows queueCapacity os (os.filter Operation.isRequest ++ [o]) (s.withTask x)
  | storing {s : Interleaving} (run : Nat)
      (given : s.tasks ++ [.answered (.ok ())] = (answers queueCapacity {} os).map .answered)
      (rep : Represents { s with slot := some run } (os.foldl (after queueCapacity) {})) :
      Shows queueCapacity os (os.filter Operation.isRequest) (s.withTask (.storing run))

theorem Underway.isRequest {x : Task} {o : Operation} (h : Underway queueCapacity s c x o) :
    o.isRequest = true := by
  cases h <;> rfl

/-! ## The request goes on -/

/-- What a step of the request that is under way leaves: the request a step further, a run that it
started, or its answer. -/
inductive Advance (queueCapacity : Nat) (s : Interleaving) (c : LoadControl) (o : Operation) :
    Interleaving → Prop where
  | further {u : Interleaving} {y : Task} (same : u.tasks = s.tasks)
      (way : Underway queueCapacity u c y o) : Advance queueCapacity s c o (u.withTask y)
  | spawned {u : Interleaving} (run : Nat) (same : u.tasks = s.tasks)
      (granted : c.answer? queueCapacity o = some (.ok ()))
      (rep : Represents { u with slot := some run } (c.after queueCapacity o)) :
      Advance queueCapacity s c o (u.withTask (.storing run))
  | answered {u : Interleaving} {result : Except ControlError Unit} (same : u.tasks = s.tasks)
      (given : c.answer? queueCapacity o = some result)
      (rep : Represents u (c.after queueCapacity o)) :
      Advance queueCapacity s c o (u.withTask (.answered result))

theorem Represents.rejected (h : Represents s c) {r : LoadRequest} {e : ControlError}
    (hstart : c.start r queueCapacity = .error e) :
    Advance queueCapacity s c (.start r) (s.withTask (.answered (.error e))) := by
  refine .answered rfl ?_ ?_
  · rw [answer?, hstart]
    rfl
  · rw [after, hstart]
    exact h

theorem advance_start {r : LoadRequest} (rep : Represents s c)
    (h : (s.withTask (.start r)).proceed queueCapacity s.tasks.length (.start r) = some t) :
    Advance queueCapacity s c (.start r) t := by
  rw [proceed] at h
  split at h
  next within =>
    rw [setTask_withTask] at h
    cases h
    exact .further rfl (.admitted r within rep)
  next e beyond =>
    rw [setTask_withTask] at h
    cases h
    exact rep.rejected (start_of_error beyond)

theorem advance_admitted {r : LoadRequest} (within : r.check queueCapacity = .ok ())
    (rep : Represents s c)
    (h : (s.withTask (.admitted r)).proceed queueCapacity s.tasks.length (.admitted r) = some t) :
    Advance queueCapacity s c (.start r) t := by
  rw [proceed, Option.ite_none_right_eq_some, setTask_withTask] at h
  cases h.2
  exact .further rfl (.claiming r within rep)

theorem advance_claiming {r : LoadRequest} (within : r.check queueCapacity = .ok ())
    (rep : Represents s c)
    (h : (s.withTask (.claiming r)).proceed queueCapacity s.tasks.length (.claiming r) = some t) :
    Advance queueCapacity s c (.start r) t := by
  rw [proceed] at h
  split at h
  next set =>
    rw [setTask_withTask] at h
    cases h
    have hset : c.running = true := rep.running.symm.trans set
    exact rep.rejected (start_of_running within hset)
  next notSet =>
    have hclear : s.running = false := by simpa [withTask] using notSet
    have hsame : { s with running := false } = s := by rw [← hclear]
    have hnext := setTask_withTask { s with running := true } (.claiming r) (.spawning r)
    cases hnext.symm.trans (Option.some.inj h)
    exact .further rfl
      (.spawning r within rfl (rep.running.symm.trans hclear) (hsame.symm ▸ rep))

theorem advance_spawning {r : LoadRequest} (within : r.check queueCapacity = .ok ())
    (set : s.running = true) (clear : c.running = false)
    (rep : Represents { s with running := false } c)
    (h : (s.withTask (.spawning r)).proceed queueCapacity s.tasks.length (.spawning r) = some t) :
    Advance queueCapacity s c (.start r) t := by
  let spawned : Interleaving := { s with runs := s.runs ++ [RunPhase.working r.workers] }
  have hnext := setTask_withTask spawned (.spawning r) (.storing s.runs.length)
  cases hnext.symm.trans (Option.some.inj h)
  have hstart : c.start r queueCapacity = .ok (started r) := start_of_clear within clear
  have hkept : { spawned with slot := some s.runs.length } =
      withRun { s with running := false } r.workers := by
    simp only [spawned, withRun, set]
  refine .spawned s.runs.length rfl ?_ ?_
  · rw [answer?, hstart]
    rfl
  · rw [after, hstart, hkept]
    exact rep.withRun r.workers clear

theorem advance_stop (rep : Represents s c)
    (h : (s.withTask .stop).proceed queueCapacity s.tasks.length .stop = some t) :
    Advance queueCapacity s c .stop t := by
  have hnext := setTask_withTask { s with running := false } .stop .stopping
  cases hnext.symm.trans (Option.some.inj h)
  have hsame : { s with running := c.running } = s := by rw [← rep.running]
  exact .further rfl (.stopping rfl (hsame.symm ▸ rep))

theorem advance_stopping (clear : s.running = false)
    (rep : Represents { s with running := c.running } c)
    (h : (s.withTask .stopping).proceed queueCapacity s.tasks.length .stopping = some t) :
    Advance queueCapacity s c .stop t := by
  rw [proceed, Option.ite_none_right_eq_some] at h
  have hmatch := h.2
  split at hmatch
  next run kept =>
    have hkept : s.slot = some run := kept
    have hnext := setTask_withTask { s with slot := none } .stopping (.awaiting run)
    cases hnext.symm.trans (Option.some.inj hmatch)
    have hsame : { s with running := c.running, slot := some run } =
        { s with running := c.running } := by rw [← hkept]
    exact .further rfl (.awaiting run clear rfl (hsame.symm ▸ rep))
  next empty =>
    have hempty : s.slot = none := empty
    rw [setTask_withTask] at hmatch
    cases hmatch
    have hidle : ∀ k, ¬ s.Active k := by
      intro k hk
      cases hempty.symm.trans (rep.kept k hk)
    have hsame : released { s with running := c.running } = s := by
      rw [released, ← clear, ← hempty]
    exact .answered rfl rfl (hsame ▸ rep.released hidle)

theorem advance_awaiting {run : Nat} (clear : s.running = false) (empty : s.slot = none)
    (rep : Represents { s with running := c.running, slot := some run } c)
    (h : (s.withTask (.awaiting run)).proceed queueCapacity s.tasks.length (.awaiting run) =
      some t) :
    Advance queueCapacity s c .stop t := by
  rw [proceed, Option.ite_none_right_eq_some, setTask_withTask] at h
  cases h.2
  have hexited : s.runs[run]? = some .exited := h.1
  -- An active run would be the one whose handle the stop took, which has exited.
  have hidle : ∀ k, ¬ s.Active k := by
    rintro k ⟨n, hn⟩
    cases rep.kept k ⟨n, hn⟩
    cases hexited.symm.trans hn
  have hsame : released { s with running := c.running, slot := some run } = s := by
    rw [released, ← clear, ← empty]
  exact .answered rfl rfl (hsame ▸ rep.released hidle)

theorem Underway.advance {x : Task} {o : Operation} (h : Underway queueCapacity s c x o)
    (hp : (s.withTask x).proceed queueCapacity s.tasks.length x = some t) :
    Advance queueCapacity s c o t := by
  cases h with
  | start r rep => exact advance_start rep hp
  | admitted r within rep => exact advance_admitted within rep hp
  | claiming r within rep => exact advance_claiming within rep hp
  | spawning r within set clear rep => exact advance_spawning within set clear rep hp
  | stop rep => exact advance_stop rep hp
  | stopping clear rep => exact advance_stopping clear rep hp
  | awaiting run clear empty rep => exact advance_awaiting clear empty rep hp

/-! ## Workers and runs leave while a request is under way -/

theorem Underway.leave {x : Task} {o : Operation} (h : Underway queueCapacity s c x o)
    {run n : Nat} (hp : s.runs[run]? = some (.working (n + 1))) :
    Underway queueCapacity (s.setRun run (.working n)) c x o := by
  cases h with
  | start r rep => exact .start r (rep.leave hp)
  | admitted r within rep => exact .admitted r within (rep.leave hp)
  | claiming r within rep => exact .claiming r within (rep.leave hp)
  | spawning r within set clear rep => exact .spawning r within set clear (rep.leave hp)
  | stop rep => exact .stop (rep.leave hp)
  | stopping clear rep => exact .stopping clear (rep.leave hp)
  | awaiting kept clear empty rep => exact .awaiting kept clear empty (rep.leave hp)

theorem Underway.exit {x : Task} {o : Operation} (h : Underway queueCapacity s c x o) {run : Nat}
    (hp : s.runs[run]? = some (.working 0)) :
    Underway queueCapacity (s.withExit run) (c.after queueCapacity .finish) x o := by
  cases h with
  | start r rep => exact .start r (rep.exit queueCapacity hp)
  | admitted r within rep => exact .admitted r within (rep.exit queueCapacity hp)
  | claiming r within rep => exact .claiming r within (rep.exit queueCapacity hp)
  -- No run is active while one is about to be started.
  | spawning r within set clear rep => exact absurd ⟨0, hp⟩ (rep.clear rfl run)
  | stop rep => exact .stop (rep.exit queueCapacity hp)
  -- The stop has cleared the flag; for load control, where it has no effect yet, the exit does.
  | stopping clear rep =>
    have hrep := rep.exit queueCapacity hp
    have hflag : (c.after queueCapacity .finish).running = false := hrep.running.symm
    exact .stopping rfl (hflag.symm ▸ hrep)
  | awaiting kept clear empty rep =>
    have hrep := rep.exit queueCapacity hp
    have hflag : (c.after queueCapacity .finish).running = false := hrep.running.symm
    exact .awaiting kept rfl empty (hflag.symm ▸ hrep)

/-! ## Whole schedules -/

theorem quiet_of_given {rs : List (Except ControlError Unit)}
    (given : s.tasks = rs.map .answered) : s.Quiet := by
  intro x hx
  rw [given, List.mem_map] at hx
  rcases hx with ⟨result, -, rfl⟩
  exact ⟨result, rfl⟩

/-- Only the request that is under way can go on. -/
theorem proceed_of_step? {x : Task} {i : Nat} (quiet : s.Quiet)
    (h : (s.withTask x).step? queueCapacity (.proceed i) = some t) :
    (s.withTask x).proceed queueCapacity s.tasks.length x = some t := by
  rw [step?] at h
  split at h
  next y hy =>
    rw [withTask, List.getElem?_append] at hy
    split at hy
    next =>
      rcases quiet y (List.mem_of_getElem? hy) with ⟨result, rfl⟩
      cases h
    next hlast =>
      rw [List.getElem?_singleton] at hy
      split at hy
      next hi =>
        cases hy
        obtain rfl : i = s.tasks.length := by omega
        exact h
      next => cases hy
  next => cases h

theorem not_quiet_withTask {x : Task} (hx : ∀ result, x ≠ .answered result) :
    ¬ (s.withTask x).Quiet := by
  intro h
  rcases h x (by simp [withTask]) with ⟨result, hresult⟩
  exact hx result hresult

theorem Underway.ne_answered {x : Task} {o : Operation} (h : Underway queueCapacity s c x o)
    (result : Except ControlError Unit) : x ≠ .answered result := by
  cases h <;> nofun

theorem Shows.represents {os requests : List Operation} (h : Shows queueCapacity os requests s)
    (quiet : s.Quiet) :
    requests = os.filter Operation.isRequest ∧
      s.tasks = (answers queueCapacity {} os).map .answered ∧
      Represents s (os.foldl (after queueCapacity) {}) := by
  cases h with
  | quiet given rep => exact ⟨rfl, given, rep⟩
  | underway given way => exact absurd quiet (not_quiet_withTask way.ne_answered)
  | storing run given rep => exact absurd quiet (not_quiet_withTask nofun)

/-- An operation that takes effect, with its answer. -/
theorem answers_take {os : List Operation} {o : Operation} {result : Except ControlError Unit}
    (given : s.tasks = (answers queueCapacity {} os).map .answered)
    (answer : (os.foldl (after queueCapacity) {}).answer? queueCapacity o = some result) :
    s.tasks ++ [.answered result] = (answers queueCapacity {} (os ++ [o])).map .answered := by
  rw [answers_concat, answer, List.map_append, given]
  rfl

theorem Shows.proceed {os requests : List Operation} {i : Nat}
    (h : Shows queueCapacity os requests s) (hs : s.step? queueCapacity (.proceed i) = some t) :
    ∃ next, Shows queueCapacity next requests t := by
  cases h with
  | quiet given rep =>
    rw [step?] at hs
    split at hs
    next x hx =>
      rcases quiet_of_given given x (List.mem_of_getElem? hx) with ⟨result, rfl⟩
      cases hs
    next => cases hs
  | @underway s x o given way =>
    have hfilter : os.filter Operation.isRequest ++ [o] =
        (os ++ [o]).filter Operation.isRequest := by
      simp [List.filter_append, way.isRequest]
    have hp := proceed_of_step? (quiet_of_given given) hs
    cases way.advance hp with
    | further same way => exact ⟨os, .underway (same.trans given) way⟩
    | spawned run same granted rep =>
      rw [hfilter]
      refine ⟨os ++ [o], .storing run (answers_take (same.trans given) granted) ?_⟩
      rw [List.foldl_append]
      exact rep
    | answered same answer rep =>
      rw [hfilter]
      refine ⟨os ++ [o], .quiet (answers_take (same.trans given) answer) ?_⟩
      rw [List.foldl_append]
      exact rep.withTask _
  | @storing s run given rep =>
    have quiet : s.Quiet := fun x hx =>
      quiet_of_given (s := s.withTask (.answered (.ok ()))) given x (List.mem_append_left _ hx)
    have hp := proceed_of_step? quiet hs
    have hnext := setTask_withTask { s with slot := some run } (.storing run) (.answered (.ok ()))
    cases hnext.symm.trans (Option.some.inj hp)
    exact ⟨os, .quiet given (rep.withTask (.ok ()))⟩

theorem Shows.leave {os requests : List Operation} {run n : Nat}
    (h : Shows queueCapacity os requests s) (hp : s.runs[run]? = some (.working (n + 1))) :
    Shows queueCapacity os requests (s.setRun run (.working n)) := by
  cases h with
  | quiet given rep => exact .quiet given (rep.leave hp)
  | underway given way => exact .underway (s := setRun _ run _) given (way.leave hp)
  | storing kept given rep => exact .storing (s := setRun _ run _) kept given (rep.leave hp)

/-- A run that ends by itself is an operation between the requests. -/
theorem Shows.exit {os requests : List Operation} {run : Nat}
    (h : Shows queueCapacity os requests s) (hp : s.runs[run]? = some (.working 0)) :
    Shows queueCapacity (os ++ [.finish]) requests (s.withExit run) := by
  have hanswers : answers queueCapacity {} (os ++ [.finish]) = answers queueCapacity {} os := by
    rw [answers_concat]
    exact List.append_nil _
  have hrequests : (os ++ [Operation.finish]).filter Operation.isRequest =
      os.filter Operation.isRequest := by simp [List.filter_append, Operation.isRequest]
  have hfold : (os ++ [Operation.finish]).foldl (after queueCapacity) {} =
      (os.foldl (after queueCapacity) {}).after queueCapacity .finish := List.foldl_append
  cases h with
  | quiet given rep =>
    rw [← hrequests]
    exact .quiet (hanswers ▸ given) (hfold ▸ rep.exit queueCapacity hp)
  | underway given way =>
    rw [← hrequests]
    exact .underway (s := withExit _ run) (hanswers ▸ given) (hfold ▸ way.exit hp)
  | storing kept given rep =>
    rw [← hrequests]
    exact .storing (s := withExit _ run) kept (hanswers ▸ given)
      (hfold ▸ rep.exit queueCapacity hp)

/-- A step shows one operation more, the same ones, or the request that comes with it. -/
theorem Shows.step {os requests : List Operation} (h : Shows queueCapacity os requests s)
    (alone : a.request?.isSome → s.Quiet) (hs : s.step? queueCapacity a = some t) :
    ∃ next, Shows queueCapacity next (requests ++ a.request?.toList) t := by
  cases a with
  | requestStart r =>
    obtain ⟨rfl, given, rep⟩ := h.represents (alone rfl)
    cases hs
    exact ⟨os, .underway given (.start r rep)⟩
  | requestStop =>
    obtain ⟨rfl, given, rep⟩ := h.represents (alone rfl)
    cases hs
    exact ⟨os, .underway given (.stop rep)⟩
  | proceed i => simpa [Action.request?] using h.proceed hs
  | leave run =>
    cases step_of_step? hs with
    | leave run n hp => exact ⟨os, by simpa [Action.request?] using h.leave hp⟩
  | exit run =>
    cases step_of_step? hs with
    | exit run hp =>
      have hrest : requests ++ (Action.exit run).request?.toList = requests :=
        List.append_nil requests
      exact ⟨os ++ [.finish], hrest.symm ▸ h.exit hp⟩

theorem Serial.shows {os requests : List Operation} (serial : Serial queueCapacity s actions)
    (h : Shows queueCapacity os requests s) (hs : s.steps? queueCapacity actions = some t) :
    ∃ next, Shows queueCapacity next (requests ++ actions.filterMap Action.request?) t := by
  induction actions generalizing s os requests with
  | nil =>
    cases hs
    exact ⟨os, by simpa using h⟩
  | cons a actions ih =>
    rw [steps?_cons, Option.bind_eq_some_iff] at hs
    obtain ⟨u, ha, hrest⟩ := hs
    obtain ⟨alone, rest⟩ := serial
    obtain ⟨next, hnext⟩ := h.step alone ha
    have hrequests : (requests ++ a.request?.toList) ++ actions.filterMap Action.request? =
        requests ++ (a :: actions).filterMap Action.request? := by
      rw [List.append_assoc]
      cases a <;> rfl
    exact hrequests ▸ ih (rest u ha) hnext hrest

/-- A serial schedule that answers all its requests is a series of operations: it makes the same
requests and gives the same answers, and leaves what the operations leave. -/
theorem Serial.exists_operations (serial : Serial queueCapacity {} actions)
    (hs : steps? queueCapacity {} actions = some t) (quiet : t.Quiet) :
    ∃ operations : List Operation,
      operations.filter Operation.isRequest = actions.filterMap Action.request? ∧
      t.tasks = (answers queueCapacity {} operations).map .answered ∧
      Represents t (operations.foldl (after queueCapacity) {}) := by
  have hinit : Shows queueCapacity [] [] {} := .quiet rfl represents_init
  obtain ⟨os, hshows⟩ := serial.shows hinit hs
  obtain ⟨hrequests, given, rep⟩ := hshows.represents quiet
  exact ⟨os, hrequests.symm, given, rep⟩

end Interleaving

end RequestMeter.LoadControl
