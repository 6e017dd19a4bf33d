import Mathlib.Data.List.Induction
import RequestMeter.Proofs.Load.Step

/-! # When at most one run is active

The flag alone decides whether a start is granted, and a stop clears it before the run has exited.  So
two runs can be active at once, and a run that exits can clear the flag that was set for the next one.
This cannot happen exactly when every start that is granted finds no run active.
-/
namespace RequestMeter.LoadControl.Interleaving

variable {queueCapacity : Nat} {s t : Interleaving} {a : Action} {actions : List Action}

/-- Along these actions a start is granted only while no run is active. -/
def Exclusive (queueCapacity : Nat) (actions : List Action) : Prop :=
  ∀ before (i : Nat) s r, before ++ [Action.proceed i] <+: actions →
    steps? queueCapacity {} before = some s → s.tasks[i]? = some (.claiming r) →
    s.running = false → s.activeRuns = 0

/-- At most one run is active, at every moment of these actions and one step beyond, and a run that
exits clears no flag that was set for a later one. -/
structure SingleRun (queueCapacity : Nat) (actions : List Action) : Prop where
  active : ∀ before a t, before <+: actions → steps? queueCapacity {} (before ++ [a]) = some t →
    t.activeRuns ≤ 1
  flag : ∀ before run s t, before ++ [Action.exit run] <+: actions →
    steps? queueCapacity {} before = some s → s.step? queueCapacity (.exit run) = some t →
    s.running = true → s.granted = run + 1

/-! ## One request holds the slot -/

def OneHolder (s : Interleaving) : Prop :=
  ∀ (i j : Nat) (x y : Task), s.tasks[i]? = some x → s.tasks[j]? = some y →
    x.holdsSlot = true → y.holdsSlot = true → i = j

theorem not_holdsSlot_of_slotFree (h : s.slotFree = true) {x : Task} (hx : x ∈ s.tasks) :
    x.holdsSlot = false := by
  simpa using List.all_eq_true.1 h x hx

theorem not_holdsSlot_setTask (h : s.slotFree = true) {i : Nat} {y z : Task}
    (hy : y.holdsSlot = false) (hz : z ∈ (s.setTask i y).tasks) : z.holdsSlot = false := by
  cases mem_setTask hz with
  | inl hold => exact not_holdsSlot_of_slotFree h hold
  | inr hnew => rw [hnew, hy]

theorem OneHolder.setTask {i : Nat} {x y : Task} (h : OneHolder s) (hx : s.tasks[i]? = some x)
    (hy : y.holdsSlot = false ∨ x.holdsSlot = true ∨ s.slotFree = true) :
    OneHolder (s.setTask i y) := by
  -- Another holder excludes both a holder in the place of `y` and a free slot.
  have other : ∀ (j : Nat) (z : Task),
      s.tasks[j]? = some z → z.holdsSlot = true → y.holdsSlot = true → i = j := by
    intro j z hz hhz hhy
    rcases hy with hno | hhx | hfree
    · simp [hno] at hhy
    · exact h i j x z hx hz hhx hhz
    · have hmem : z ∈ s.tasks := List.mem_of_getElem? hz
      simp [not_holdsSlot_of_slotFree hfree hmem] at hhz
  intro j k z w hz hw hhz hhw
  rw [getElem?_setTask hx] at hz hw
  split at hz
  next hij =>
    cases hz
    split at hw
    next hik => exact hij.symm.trans hik
    next => exact hij.symm.trans (other k w hw hhw hhz)
  next =>
    split at hw
    next hik =>
      cases hw
      exact (other j z hz hhz hhw).symm.trans hik
    next => exact h j k z w hz hw hhz hhw

theorem OneHolder.request {x : Task} (h : OneHolder s) (hx : x.holdsSlot = false) :
    OneHolder { s with tasks := s.tasks ++ [x] } := by
  have old : ∀ (j : Nat) (z : Task),
      (s.tasks ++ [x])[j]? = some z → z.holdsSlot = true → s.tasks[j]? = some z := by
    intro j z hz hhz
    rw [List.getElem?_append] at hz
    split at hz
    next => exact hz
    next =>
      have hmem : z ∈ [x] := List.mem_of_getElem? hz
      rw [List.mem_singleton] at hmem
      simp [hmem, hx] at hhz
  intro j k z w hz hw hhz hhw
  exact h j k z w (old j z hz hhz) (old k w hw hhw) hhz hhw

theorem Turn.holdsSlot {x y : Task} (h : Turn queueCapacity s x y) :
    y.holdsSlot = false ∨ x.holdsSlot = true ∨ s.slotFree = true := by
  cases h with
  | lock r free => exact .inr (.inr free)
  | _ => exact .inl rfl

theorem OneHolder.step (h : OneHolder s) (hs : Step queueCapacity s a t) : OneHolder t := by
  cases hs with
  | requestStart r => exact h.request rfl
  | requestStop => exact h.request rfl
  | turn hx go => exact h.setTask hx go.holdsSlot
  | grant r hx clear => exact h.setTask hx (.inr (.inl rfl))
  | spawn r hx => exact h.setTask hx (.inr (.inl rfl))
  | store run hx => exact h.setTask hx (y := .answered (.ok ())) (.inl rfl)
  | clear hx => exact h.setTask hx (y := .stopping) (.inl rfl)
  | take run hx free kept => exact h.setTask hx (y := .awaiting run) (.inl rfl)
  | leave run n hp => exact h
  | exit run hp => exact h

/-! ## Only the last run is active -/

structure Orderly (s : Interleaving) : Prop where
  holder : OneHolder s
  /-- No run is active while one is about to be started. -/
  spawning : ∀ r, .spawning r ∈ s.tasks → ∀ k, ¬ s.Active k
  last : ∀ k, s.Active k → k + 1 = s.runs.length

theorem orderly_init : Orderly {} where
  holder := by intro i j x y hx; simp at hx
  spawning := by simp
  last := by simp [Active]

theorem Orderly.activeRuns_le_one (h : Orderly s) : s.activeRuns ≤ 1 := by
  rcases List.eq_nil_or_concat s.runs with hr | ⟨runs, p, hr⟩
  · simp [activeRuns, hr]
  · have hold : runs.countP (fun x => decide (x ≠ RunPhase.exited)) = 0 := by
      rw [List.countP_eq_zero]
      intro x hx
      cases x with
      | exited => simp
      | working n =>
        rcases List.mem_iff_getElem?.1 hx with ⟨k, hk⟩
        have hlt : k < runs.length := (List.getElem?_eq_some_iff.1 hk).1
        have hactive : s.Active k := by
          use n
          rw [hr, List.concat_eq_append, List.getElem?_append_left hlt, hk]
        have hlast := h.last k hactive
        rw [hr, List.length_concat] at hlast
        omega
    rw [activeRuns, hr, List.concat_eq_append, List.countP_append, hold, Nat.zero_add]
    exact List.countP_le_length

/-- A run that exits while the flag is set is the one that it was set for. -/
theorem Orderly.granted_of_active (h : Orderly s) {k : Nat} (hk : s.Active k) :
    s.granted = k + 1 := by
  have hnone : s.tasks.countP Task.isSpawning = 0 := by
    rw [List.countP_eq_zero]
    intro x hx
    cases x with
    | spawning r => exact absurd hk (h.spawning r hx k)
    | _ => exact Bool.false_ne_true
  rw [granted, hnone, h.last k hk, Nat.add_zero]

theorem Orderly.setTask {i : Nat} {x y : Task} (h : Orderly s) (hx : s.tasks[i]? = some x)
    (hholds : y.holdsSlot = false ∨ x.holdsSlot = true ∨ s.slotFree = true)
    (hspawning : y.isSpawning = false) : Orderly (s.setTask i y) where
  holder := h.holder.setTask hx hholds
  spawning := by
    intro r hr
    cases mem_setTask hr with
    | inl hold => exact h.spawning r hold
    | inr hnew => simp [← hnew, Task.isSpawning] at hspawning
  last := h.last

theorem Orderly.request {x : Task} (h : Orderly s) (hholds : x.holdsSlot = false)
    (hspawning : x.isSpawning = false) : Orderly { s with tasks := s.tasks ++ [x] } where
  holder := h.holder.request hholds
  spawning := by
    intro r hr
    rw [List.mem_append, List.mem_singleton] at hr
    cases hr with
    | inl hold => exact h.spawning r hold
    | inr hnew => simp [← hnew, Task.isSpawning] at hspawning
  last := h.last

/-- While a request is about to start a run, no other is. -/
theorem OneHolder.not_spawning {i : Nat} {x y : Task} (h : OneHolder s) (hx : s.tasks[i]? = some x)
    (hholds : x.holdsSlot = true) (hy : y.isSpawning = false) (r : LoadRequest) :
    .spawning r ∉ (s.setTask i y).tasks := by
  intro hr
  rcases List.mem_iff_getElem?.1 hr with ⟨j, hj⟩
  rw [getElem?_setTask hx] at hj
  split at hj
  next =>
    cases hj
    simp [Task.isSpawning] at hy
  next hij => exact hij (h i j x (.spawning r) hx hj hholds rfl)

theorem Orderly.step (h : Orderly s) (hs : Step queueCapacity s a t)
    (exclusive : ∀ i r, a = .proceed i → s.tasks[i]? = some (.claiming r) → s.running = false →
      s.activeRuns = 0) : Orderly t := by
  have hholder : OneHolder t := h.holder.step hs
  cases hs with
  | requestStart r => exact h.request rfl rfl
  | requestStop => exact h.request rfl rfl
  | turn hx go => exact h.setTask hx go.holdsSlot go.isSpawning.2
  | grant r hx clear =>
    have hidle := activeRuns_eq_zero_iff.1 (exclusive _ r rfl hx clear)
    exact { holder := hholder, spawning := fun _ _ => hidle, last := h.last }
  | @spawn i r hx =>
    have hidle := h.spawning r (List.mem_of_getElem? hx)
    have honly := h.holder.not_spawning hx rfl (y := .storing s.runs.length) rfl
    refine { holder := hholder, spawning := fun r' hr' => absurd hr' (honly r'), last := ?_ }
    intro k hk
    cases (active_spawn r.workers k).1 hk with
    | inl hnew => simp [hnew, Interleaving.setTask]
    | inr hold => exact absurd hold (hidle k)
  | store run hx =>
    have h' := h.setTask hx (y := .answered (.ok ())) (.inl rfl) rfl
    exact { holder := hholder, spawning := h'.spawning, last := h'.last }
  | clear hx =>
    have h' := h.setTask hx (y := .stopping) (.inl rfl) rfl
    exact { holder := hholder, spawning := h'.spawning, last := h'.last }
  | take run hx free kept =>
    have h' := h.setTask hx (y := .awaiting run) (.inl rfl) rfl
    exact { holder := hholder, spawning := h'.spawning, last := h'.last }
  | leave run n hp =>
    refine { holder := hholder, spawning := fun r hr k hk => ?_, last := fun k hk => ?_ }
    · exact h.spawning r hr k ((active_leave hp k).1 hk)
    · simpa [setRun] using h.last k ((active_leave hp k).1 hk)
  | exit run hp =>
    refine { holder := hholder, spawning := fun r hr k hk => ?_, last := fun k hk => ?_ }
    · exact h.spawning r hr k ((active_exit hp k).1 hk).2
    · simpa [setRun] using h.last k ((active_exit hp k).1 hk).2

theorem Orderly.activeRuns_step (h : Orderly s) (hs : Step queueCapacity s a t) :
    t.activeRuns ≤ 1 := by
  have hstep := h.step hs
  cases hs with
  | spawn r hx =>
    refine (hstep ?_).activeRuns_le_one
    rintro j r' ⟨⟩ hclaiming
    simp [hx] at hclaiming
  | leave run n hp => exact (hstep nofun).activeRuns_le_one
  | exit run hp => exact (hstep nofun).activeRuns_le_one
  | _ => exact h.activeRuns_le_one

/-! ## Schedules -/

theorem Exclusive.of_prefix {before : List Action} (h : Exclusive queueCapacity actions)
    (hb : before <+: actions) : Exclusive queueCapacity before :=
  fun before' i s r hb' => h before' i s r (hb'.trans hb)

theorem Exclusive.orderly (h : Exclusive queueCapacity actions)
    (hs : steps? queueCapacity {} actions = some t) : Orderly t := by
  induction actions using List.reverseRecOn generalizing t with
  | nil =>
    cases hs
    exact orderly_init
  | append_singleton before a ih =>
    rcases steps?_concat_eq_some.1 hs with ⟨s, hbefore, ha⟩
    have hs : Orderly s := ih (h.of_prefix (List.prefix_append before [a])) hbefore
    apply hs.step (step_of_step? ha)
    intro i r hi
    subst hi
    exact h before i s r List.prefix_rfl hbefore

theorem active_of_exit {run : Nat} (h : s.step? queueCapacity (.exit run) = some t) :
    s.Active run := by
  cases step_of_step? h with
  | exit run hp => exact ⟨0, hp⟩

/-- A start that is granted can take its next step, which starts the run. -/
theorem exists_spawn {before : List Action} {i : Nat} {r : LoadRequest}
    (hs : steps? queueCapacity {} before = some s) (hx : s.tasks[i]? = some (.claiming r))
    (clear : s.running = false) :
    ∃ t, steps? queueCapacity {} (before ++ [.proceed i] ++ [.proceed i]) = some t ∧
      t.activeRuns = s.activeRuns + 1 := by
  let u : Interleaving := { s with running := true }.setTask i (.spawning r)
  have hu : steps? queueCapacity {} (before ++ [.proceed i]) = some u := by
    rw [steps?_concat_eq_some]
    use s, hs
    simp [step?, hx, proceed, clear, u]
  have hspawning : u.tasks[i]? = some (.spawning r) := by
    have := getElem?_setTask hx (.spawning r) i
    rwa [if_pos rfl] at this
  refine ⟨_, steps?_concat_eq_some.2 ⟨u, hu, by simp only [step?, hspawning, proceed]; rfl⟩, ?_⟩
  simp [activeRuns, setTask, u]

/-- At most one run is active, and no exit clears the flag of a later run, exactly when every start
that is granted finds no run active. -/
theorem singleRun_iff_exclusive (queueCapacity : Nat) (actions : List Action) :
    SingleRun queueCapacity actions ↔ Exclusive queueCapacity actions := by
  constructor
  · intro h before i s r hb hs hx clear
    rcases exists_spawn hs hx clear with ⟨t, ht, hactive⟩
    have hle := h.active _ _ t hb ht
    omega
  · intro h
    constructor
    · intro before a t hb ht
      rcases steps?_concat_eq_some.1 ht with ⟨s, hs, ha⟩
      have horderly : Orderly s := (h.of_prefix hb).orderly hs
      exact horderly.activeRuns_step (step_of_step? ha)
    · intro before run t u hb ht hu _
      have hbefore : before <+: actions := (List.prefix_append _ _).trans hb
      have horderly : Orderly t := (h.of_prefix hbefore).orderly ht
      exact horderly.granted_of_active (active_of_exit hu)

/-- One worker starts a transaction, a stop takes the handle and waits for it, and a second start
finds the flag cleared. -/
def overlapping : List Action :=
  [.requestStart { workers := 1 }, .proceed 0, .proceed 0, .proceed 0, .proceed 0, .proceed 0,
    .requestStop, .proceed 1, .proceed 1,
    .requestStart { workers := 1 }, .proceed 2, .proceed 2, .proceed 2, .proceed 2, .proceed 2]

/-- The second start is granted while the first run is active, which then clears the flag of the
second run when it exits. -/
theorem overlapping_two_runs :
    (steps? 1 {} overlapping).map (fun s => (s.activeRuns, s.running)) = some (2, true) ∧
      (steps? 1 {} (overlapping ++ [.leave 0, .exit 0])).map
        (fun s => (s.activeRuns, s.running, s.granted)) = some (1, false, 2) ∧
      ¬ ∀ actions t, steps? 1 {} actions = some t → t.activeRuns ≤ 1 := by
  have htwo : (steps? 1 {} overlapping).map (fun s => (s.activeRuns, s.running)) =
      some (2, true) := by rfl
  refine ⟨htwo, by rfl, ?_⟩
  intro h
  rcases Option.map_eq_some_iff.1 htwo with ⟨t, ht, hpair⟩
  have hactive : t.activeRuns = 2 := congrArg Prod.fst hpair
  have hle := h overlapping t ht
  omega

/-! ## Stops that are under way

The flag can only be clear while a run is active because a stop has yet to be answered.  So the starts
that do harm are those granted while a stop is under way.
-/

/-- Along these actions no start is granted while a stop has yet to be answered. -/
def Unhurried (queueCapacity : Nat) (actions : List Action) : Prop :=
  ∀ before (i : Nat) s r, before ++ [Action.proceed i] <+: actions →
    steps? queueCapacity {} before = some s → s.tasks[i]? = some (.claiming r) →
    s.running = false → ∀ x ∈ s.tasks, x.isStopping = false

structure Attended (s : Interleaving) : Prop where
  storing : ∀ k, .storing k ∈ s.tasks → k + 1 = s.runs.length
  /-- The handle of an active run is about to be kept, kept, or taken by a stop. -/
  handle : ∀ k, s.Active k → .storing k ∈ s.tasks ∨ s.slot = some k ∨ .awaiting k ∈ s.tasks
  spawning : s.running = false → ∀ r, .spawning r ∈ s.tasks → .stopping ∈ s.tasks
  active : s.running = false → ∀ k, s.Active k → .stopping ∈ s.tasks ∨ .awaiting k ∈ s.tasks

theorem attended_init : Attended {} where
  storing := by simp
  handle := by simp [Active]
  spawning := by simp
  active := by simp [Active]

theorem mem_setTask_of_isStopping {i : Nat} {x z : Task} (hx : s.tasks[i]? = some x)
    (hstop : x.isStopping = false) (y : Task) (hz : z ∈ s.tasks) (hzstop : z.isStopping = true) :
    z ∈ (s.setTask i y).tasks := by
  apply mem_setTask_of_ne hx y hz
  rintro rfl
  exact absurd hstop (by simp [hzstop])

theorem Attended.setTask {i : Nat} {x y : Task} (h : Attended s) (hx : s.tasks[i]? = some x)
    (hstore : ∀ k, x ≠ .storing k ∧ y ≠ .storing k) (hstop : x.isStopping = false)
    (hspawning : y.isSpawning = false) : Attended (s.setTask i y) where
  storing := by
    intro k hk
    cases mem_setTask hk with
    | inl hold => exact h.storing k hold
    | inr hnew => exact absurd hnew.symm (hstore k).2
  handle := by
    intro k hk
    rcases h.handle k hk with hs | hs | hs
    · exact .inl (mem_setTask_of_ne hx y hs (hstore k).1.symm)
    · exact .inr (.inl hs)
    · exact .inr (.inr (mem_setTask_of_isStopping hx hstop y hs rfl))
  spawning := by
    intro hclear r hr
    cases mem_setTask hr with
    | inl hold => exact mem_setTask_of_isStopping hx hstop y (h.spawning hclear r hold) rfl
    | inr hnew => simp [← hnew, Task.isSpawning] at hspawning
  active := by
    intro hclear k hk
    cases h.active hclear k hk with
    | inl hs => exact .inl (mem_setTask_of_isStopping hx hstop y hs rfl)
    | inr hs => exact .inr (mem_setTask_of_isStopping hx hstop y hs rfl)

theorem Attended.request {x : Task} (h : Attended s) (hstore : ∀ k, x ≠ .storing k)
    (hspawning : x.isSpawning = false) : Attended { s with tasks := s.tasks ++ [x] } where
  storing := by
    intro k hk
    rw [List.mem_append, List.mem_singleton] at hk
    cases hk with
    | inl hold => exact h.storing k hold
    | inr hnew => exact absurd hnew.symm (hstore k)
  handle := by
    intro k hk
    rcases h.handle k hk with hs | hs | hs
    · exact .inl (List.mem_append_left [x] hs)
    · exact .inr (.inl hs)
    · exact .inr (.inr (List.mem_append_left [x] hs))
  spawning := by
    intro hclear r hr
    rw [List.mem_append, List.mem_singleton] at hr
    cases hr with
    | inl hold => exact List.mem_append_left [x] (h.spawning hclear r hold)
    | inr hnew => simp [← hnew, Task.isSpawning] at hspawning
  active := by
    intro hclear k hk
    exact (h.active hclear k hk).imp (List.mem_append_left [x]) (List.mem_append_left [x])

theorem Attended.turn {i : Nat} {x y : Task} (h : Attended s) (hx : s.tasks[i]? = some x)
    (go : Turn queueCapacity s x y) : Attended (s.setTask i y) := by
  cases go with
  | accept r within => exact h.setTask hx (by simp) rfl rfl
  | reject r e beyond => exact h.setTask hx (by simp) rfl rfl
  | lock r free => exact h.setTask hx (by simp) rfl rfl
  | refuse r set => exact h.setTask hx (by simp) rfl rfl
  | idle free empty =>
    have hno : ∀ z ∈ (s.setTask i (.answered (.ok ()))).tasks, z.holdsSlot = false :=
      fun z => not_holdsSlot_setTask free rfl
    have hawait : ∀ k, s.Active k → .awaiting k ∈ s.tasks := by
      intro k hk
      rcases h.handle k hk with hs | hs | hs
      · exact absurd (not_holdsSlot_of_slotFree free hs) (by simp [Task.holdsSlot])
      · simp [empty] at hs
      · exact hs
    have hkeep : ∀ k, s.Active k → .awaiting k ∈ (s.setTask i (.answered (.ok ()))).tasks :=
      fun k hk => mem_setTask_of_ne hx _ (hawait k hk) (by simp)
    exact {
      storing := fun k hk => absurd (hno _ hk) (by simp [Task.holdsSlot])
      handle := fun k hk => .inr (.inr (hkeep k hk))
      spawning := fun _ r hr => absurd (hno _ hr) (by simp [Task.holdsSlot])
      active := fun _ k hk => .inr (hkeep k hk) }
  | awaited run exited =>
    have hkeep : ∀ k, s.Active k → .awaiting k ∈ s.tasks →
        .awaiting k ∈ (s.setTask i (.answered (.ok ()))).tasks := by
      rintro k ⟨n, hn⟩ hs
      apply mem_setTask_of_ne hx _ hs
      rintro ⟨⟩
      simp [exited] at hn
    constructor
    · intro k hk
      exact h.storing k ((mem_setTask hk).resolve_right (by simp))
    · intro k hk
      rcases h.handle k hk with hs | hs | hs
      · exact .inl (mem_setTask_of_ne hx _ hs (by simp))
      · exact .inr (.inl hs)
      · exact .inr (.inr (hkeep k hk hs))
    · intro hclear r hr
      have hold := (mem_setTask hr).resolve_right (by simp)
      exact mem_setTask_of_ne hx _ (h.spawning hclear r hold) (by simp)
    · intro hclear k hk
      cases h.active hclear k hk with
      | inl hs => exact .inl (mem_setTask_of_ne hx _ hs (by simp))
      | inr hs => exact .inr (hkeep k hk hs)

theorem Attended.grant {i : Nat} {r : LoadRequest} (h : Attended s)
    (hx : s.tasks[i]? = some (.claiming r)) :
    Attended ({ s with running := true }.setTask i (.spawning r)) where
  storing := fun k hk => h.storing k ((mem_setTask hk).resolve_right (by simp))
  handle := by
    intro k hk
    rcases h.handle k hk with hs | hs | hs
    · exact .inl (mem_setTask_of_ne hx _ hs (by simp))
    · exact .inr (.inl hs)
    · exact .inr (.inr (mem_setTask_of_ne hx _ hs (by simp)))
  spawning := nofun
  active := nofun

theorem Attended.spawn {i : Nat} {r : LoadRequest} (h : Attended s) (ho : Orderly s)
    (hx : s.tasks[i]? = some (.spawning r)) :
    Attended ({ s with runs := s.runs ++ [RunPhase.working r.workers] }.setTask i
      (.storing s.runs.length)) := by
  have hmem : .spawning r ∈ s.tasks := List.mem_of_getElem? hx
  have honly : ∀ k, Active { s with runs := s.runs ++ [RunPhase.working r.workers] } k →
      k = s.runs.length := fun k hk =>
    ((active_spawn r.workers k).1 hk).resolve_right (ho.spawning r hmem k)
  have hi : i < s.tasks.length := (List.getElem?_eq_some_iff.1 hx).1
  constructor
  · intro k hk
    cases mem_setTask hk with
    | inl hold =>
      rcases List.mem_iff_getElem?.1 hold with ⟨j, hj⟩
      obtain rfl := ho.holder i j (.spawning r) (.storing k) hx hj rfl rfl
      simp [hx] at hj
    | inr hnew =>
      cases hnew
      simp [Interleaving.setTask]
  · intro k hk
    rw [honly k hk]
    exact .inl (List.mem_set hi _)
  · intro hclear r' hr'
    exact absurd hr' (ho.holder.not_spawning hx rfl rfl r')
  · intro hclear k _
    exact .inl (mem_setTask_of_ne hx _ (h.spawning hclear r hmem) (by simp))

theorem Attended.store {i run : Nat} (h : Attended s) (ho : Orderly s)
    (hx : s.tasks[i]? = some (.storing run)) :
    Attended ({ s with slot := some run }.setTask i (.answered (.ok ()))) where
  storing := fun k hk => h.storing k ((mem_setTask hk).resolve_right (by simp))
  handle := by
    intro k hk
    have hlast := ho.last k hk
    have hrun := h.storing run (List.mem_of_getElem? hx)
    have hkr : run = k := by omega
    exact .inr (.inl (congrArg some hkr))
  spawning := by
    intro hclear r hr
    exact absurd hr (ho.holder.not_spawning hx rfl rfl r)
  active := by
    intro hclear k hk
    cases h.active hclear k hk with
    | inl hs => exact .inl (mem_setTask_of_ne hx _ hs (by simp))
    | inr hs => exact .inr (mem_setTask_of_ne hx _ hs (by simp))

/-- A stop that clears the flag has yet to take the handle. -/
theorem Attended.clear {i : Nat} (h : Attended s) (hx : s.tasks[i]? = some .stop) :
    Attended ({ s with running := false }.setTask i .stopping) := by
  have h' : Attended (s.setTask i .stopping) := h.setTask hx (by simp) rfl rfl
  have hi : i < s.tasks.length := (List.getElem?_eq_some_iff.1 hx).1
  have hstopping : Task.stopping ∈ s.tasks.set i .stopping := List.mem_set hi _
  exact {
    storing := h'.storing
    handle := h'.handle
    spawning := fun _ _ _ => hstopping
    active := fun _ _ _ => .inl hstopping }

/-- A stop that takes the handle of the last run waits for that run. -/
theorem Attended.take {i run : Nat} (h : Attended s) (hx : s.tasks[i]? = some .stopping)
    (free : s.slotFree = true) (kept : s.slot = some run) :
    Attended ({ s with slot := none }.setTask i (.awaiting run)) := by
  have hno : ∀ z ∈ (s.setTask i (.awaiting run)).tasks, z.holdsSlot = false :=
    fun z => not_holdsSlot_setTask free rfl
  have hi : i < s.tasks.length := (List.getElem?_eq_some_iff.1 hx).1
  have hawait : ∀ k, s.Active k → .awaiting k ∈ (s.setTask i (.awaiting run)).tasks := by
    intro k hk
    rcases h.handle k hk with hs | hs | hs
    · exact absurd (not_holdsSlot_of_slotFree free hs) (by simp [Task.holdsSlot])
    · cases kept.symm.trans hs
      exact List.mem_set hi _
    · exact mem_setTask_of_ne hx _ hs (by simp)
  exact {
    storing := fun k hk => absurd (hno _ hk) (by simp [Task.holdsSlot])
    handle := fun k hk => .inr (.inr (hawait k hk))
    spawning := fun _ r hr => absurd (hno _ hr) (by simp [Task.holdsSlot])
    active := fun _ k hk => .inr (hawait k hk) }

theorem Attended.leave {run n : Nat} (h : Attended s)
    (hp : s.runs[run]? = some (.working (n + 1))) : Attended (s.setRun run (.working n)) where
  storing := by
    intro k hk
    simpa [setRun] using h.storing k hk
  handle := fun k hk => h.handle k ((active_leave hp k).1 hk)
  spawning := h.spawning
  active := fun hclear k hk => h.active hclear k ((active_leave hp k).1 hk)

theorem Attended.exit {run : Nat} (h : Attended s) (ho : Orderly s)
    (hp : s.runs[run]? = some (.working 0)) :
    Attended ({ s with running := false }.setRun run .exited) := by
  have hrun : s.Active run := ⟨0, hp⟩
  have hnone : ∀ k, ¬ Active (s.setRun run .exited) k := by
    intro k hk
    have ⟨hne, hactive⟩ := (active_exit hp k).1 hk
    have hlast := ho.last k hactive
    have hrunlast := ho.last run hrun
    omega
  exact {
    storing := fun k hk => by simpa [setRun] using h.storing k hk
    handle := fun k hk => absurd hk (hnone k)
    spawning := fun _ r hr => absurd hrun (ho.spawning r hr run)
    active := fun _ k hk => absurd hk (hnone k) }

theorem Attended.step (h : Attended s) (ho : Orderly s) (hs : Step queueCapacity s a t) :
    Attended t := by
  cases hs with
  | requestStart r => exact h.request (by simp) rfl
  | requestStop => exact h.request (by simp) rfl
  | turn hx go => exact h.turn hx go
  | grant r hx clear => exact h.grant hx
  | spawn r hx => exact h.spawn ho hx
  | store run hx => exact h.store ho hx
  | clear hx => exact h.clear hx
  | take run hx free kept => exact h.take hx free kept
  | leave run n hp => exact h.leave hp
  | exit run hp => exact h.exit ho hp

theorem Attended.activeRuns_eq_zero (h : Attended s) (clear : s.running = false)
    (answered : ∀ x ∈ s.tasks, x.isStopping = false) : s.activeRuns = 0 := by
  rw [activeRuns_eq_zero_iff]
  intro k hk
  cases h.active clear k hk with
  | inl hs => exact absurd (answered _ hs) (by simp [Task.isStopping])
  | inr hs => exact absurd (answered _ hs) (by simp [Task.isStopping])

theorem Unhurried.of_prefix {before : List Action} (h : Unhurried queueCapacity actions)
    (hb : before <+: actions) : Unhurried queueCapacity before :=
  fun before' i s r hb' => h before' i s r (hb'.trans hb)

theorem Unhurried.attended (h : Unhurried queueCapacity actions)
    (hs : steps? queueCapacity {} actions = some t) : Orderly t ∧ Attended t := by
  induction actions using List.reverseRecOn generalizing t with
  | nil =>
    cases hs
    exact ⟨orderly_init, attended_init⟩
  | append_singleton before a ih =>
    rcases steps?_concat_eq_some.1 hs with ⟨s, hbefore, ha⟩
    rcases ih (h.of_prefix (List.prefix_append before [a])) hbefore with ⟨ho, hattended⟩
    have hstep := step_of_step? ha
    refine ⟨ho.step hstep ?_, hattended.step ho hstep⟩
    intro i r hi hx clear
    subst hi
    exact hattended.activeRuns_eq_zero clear (h before i s r List.prefix_rfl hbefore hx clear)

/-- Starts that are granted only while no stop is under way never bring two runs together. -/
theorem Unhurried.singleRun (h : Unhurried queueCapacity actions) :
    SingleRun queueCapacity actions := by
  rw [singleRun_iff_exclusive]
  intro before i s r hb hs hx clear
  have hbefore : before <+: actions := (List.prefix_append _ _).trans hb
  exact ((h.of_prefix hbefore).attended hs).2.activeRuns_eq_zero clear (h before i s r hb hs hx clear)

end RequestMeter.LoadControl.Interleaving
