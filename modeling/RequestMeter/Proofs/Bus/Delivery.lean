import RequestMeter.Proofs.Bus.Line
import RequestMeter.Proofs.Bus.Observers

/-! # What the bus delivers

The events that the bus accepted are those that the loop took, in the order in which they were
accepted, and then those in the queue.  Each event that was taken was shown to all observers in the
order of their registration, unless one of them failed.
-/
namespace RequestMeter.Bus.Interleaving

open Observer

variable {ω : Type} [Observer ω] {s t : Interleaving ω} {os : List ω} {taken : List Event}
  {a : Action} {o : Offer} {actions : List Action}

def callsOf (observers : Nat) (es : List Event) : List (Nat × Event) :=
  es.flatMap fun e => (List.range observers).map fun i => (i, e)

/-- What became of the events that the loop took: no observer has failed just when all of them
withstand these events, and then all of them were shown each. -/
structure Served (os : List ω) (s : Interleaving ω) (taken : List Event) : Prop where
  accepted : s.accepted = taken ++ s.bus.queue
  alive : s.bus.phase ≠ .failed ↔ ∀ o ∈ os, Withstands o taken
  dispatched : s.bus.phase ≠ .failed → s.bus.dispatched = taken.length
  calls : s.bus.phase ≠ .failed → s.calls = callsOf os.length taken
  observers : s.bus.phase ≠ .failed → s.observers = os.map (after · taken)
  notices : s.bus.phase ≠ .failed → s.notices = logs os taken ++
    if s.bus.phase = .stopped then [.busStopped taken.length s.bus.queue.length] else []

/-! ## One turn of the loop -/

theorem Served.grant (h : Served os s taken) : Served os s.grant taken := by
  obtain ⟨admitted, waiting, eq⟩ := s.grant_eq
  rw [eq]
  exact ⟨h.accepted, h.alive, h.dispatched, h.calls, h.observers, h.notices⟩

theorem Served.stop (h : Served os s taken) (opened : s.bus.phase = .running) :
    Served os (s.turned (s.bus.stop s.observers)) taken where
  accepted := h.accepted
  alive := by
    have alive := h.alive
    rw [opened] at alive
    exact ⟨fun _ => alive.1 (by decide), fun _ => by simp [turned, Bus.stop]⟩
  dispatched _ := h.dispatched (by simp [opened])
  calls _ := by
    have calls := h.calls (by simp [opened])
    simpa [turned, Bus.stop, Turn.calls] using calls
  observers _ := h.observers (by simp [opened])
  notices _ := by
    have notices := h.notices (by simp [opened])
    have dispatched := h.dispatched (by simp [opened])
    simpa [turned, Bus.stop, opened, dispatched] using notices

/-- The loop takes an event and either shows it to all observers or fails with one of them. -/
theorem Served.take (h : Served os s taken) (opened : s.bus.phase = .running) {e : Event}
    {rest : List Event} (head : s.bus.queue = e :: rest) :
    Served os (s.turned (s.bus.take e rest s.observers)) (taken ++ [e]) := by
  have running : s.bus.phase ≠ .failed := by simp [opened]
  have withstood := h.alive.1 running
  have observers := h.observers running
  have accepted : (s.turned (s.bus.take e rest s.observers)).accepted =
      taken ++ [e] ++ (s.turned (s.bus.take e rest s.observers)).bus.queue := by
    simp only [turned, queue_take]
    rw [List.append_assoc, List.singleton_append, ← head]
    exact h.accepted
  by_cases calm : ∀ o ∈ s.observers, (observe o e).failed = false
  · have all : ∀ o ∈ os, Withstands o (taken ++ [e]) := by
      intro o mem
      refine withstands_concat.2 ⟨withstood o mem, calm _ ?_⟩
      rw [observers]
      exact List.mem_map_of_mem mem
    rw [take_of_forall _ _ _ calm] at accepted ⊢
    refine ⟨accepted, ?_, fun _ => ?_, fun _ => ?_, fun _ => ?_, fun _ => ?_⟩
    · simpa [turned, opened] using all
    · simp [turned, h.dispatched running]
    · simp [turned, Turn.calls, h.calls running, callsOf, observers]
    · simp [turned, observers, after_concat]
    · simp [turned, opened, h.notices running, logs_concat, observers]
  · have fails : ∃ o ∈ s.observers, (observe o e).failed = true := by simpa using calm
    have failed : (s.bus.take e rest s.observers).bus.phase = .failed := by
      rw [phase_take, if_pos (Delivery.failed_deliver_iff.2 fails)]
    have overcome : ¬∀ o ∈ os, Withstands o (taken ++ [e]) := by
      intro all
      obtain ⟨o', mem', fail⟩ := fails
      rw [observers] at mem'
      obtain ⟨o, mem, rfl⟩ := List.mem_map.1 mem'
      simp [(withstands_concat.1 (all o mem)).2] at fail
    refine ⟨accepted, ?_, ?_, ?_, ?_, ?_⟩
    · simpa [turned, failed] using overcome
    all_goals
      intro alive
      exact absurd failed alive

/-! ## Runs -/

theorem Served.step (h : Served os s taken) (step : Step s a t) :
    ∃ more, Served os t (taken ++ more) := by
  cases step with
  | turn u opened go =>
    have opened := isClosed_eq_false_iff.1 opened
    cases go with
    | stop ended => exact ⟨[], by simpa using (h.stop opened).grant⟩
    | take e rest head go => exact ⟨[e], (h.take opened head).grant⟩
  | @accept _ o _ _ brought opened room =>
    have opened := isClosed_eq_false_iff.1 opened
    refine ⟨[], ?_⟩
    rw [List.append_nil]
    refine ⟨?_, h.alive, h.dispatched, h.calls, h.observers, ?_⟩
    · rw [accepted_of_ok rfl, h.accepted, List.append_assoc]
    · simpa [opened] using h.notices
  | refuse brought closed | full o can opened noRoom =>
    refine ⟨[], ?_⟩
    rw [List.append_nil]
    exact ⟨(accepted_of_error rfl).trans h.accepted, h.alive, h.dispatched, h.calls, h.observers,
      h.notices⟩
  | wait | signalStop | cloneSender | dropSender =>
    refine ⟨[], ?_⟩
    rw [List.append_nil]
    exact ⟨h.accepted, h.alive, h.dispatched, h.calls, h.observers, h.notices⟩

theorem served_start (capacity : Nat) (os : List ω) : Served os (start { capacity } os) [] := by
  refine ⟨rfl, ?_, fun _ => rfl, fun _ => rfl, fun _ => ?_, fun _ => ?_⟩
  · simp [start, Withstands]
  · simp [start]
  · simp [start, logs]

theorem served_run {capacity : Nat} (h : (start { capacity } os).steps? actions = some s) :
    ∃ taken, Served os s taken := by
  refine run_induction (motive := fun _ s => ∃ taken, Served os s taken)
    ⟨[], served_start capacity os⟩ ?_ h
  rintro before s a t ⟨taken, served⟩ step
  obtain ⟨more, served⟩ := served.step step
  exact ⟨taken ++ more, served⟩

/-- A loop that has stopped was told to, or found no sender and no event. -/
def Ended (s : Interleaving ω) : Prop :=
  s.bus.phase = .stopped → s.bus.stopping = true ∨ s.bus.senders = 0 ∧ s.bus.queue = []

theorem Ended.step (ended : Ended s) (step : Step s a t) : Ended t := by
  cases step with
  | accept brought opened room =>
    intro stopped
    simp [isClosed_eq_false_iff.1 opened] at stopped
  | refuse | full | wait => exact ended
  | turn t opened go =>
    rw [Ended, bus_grant]
    cases go with
    | stop reason => exact fun _ => reason
    | take e rest head go =>
      intro stopped
      change (s.bus.take e rest s.observers).bus.phase = _ at stopped
      rw [phase_take, isClosed_eq_false_iff.1 opened] at stopped
      split at stopped <;> cases stopped
  | signalStop => exact fun _ => .inl rfl
  | cloneSender alive | dropSender alive kept =>
    intro stopped
    exact .inl ((ended stopped).resolve_right fun gone => alive gone.1)

theorem ended_run {capacity : Nat} (h : (start { capacity } os).steps? actions = some s) :
    Ended s :=
  run_induction (motive := fun _ s => Ended s) (fun stopped => by cases stopped) Ended.step h

/-! ## What producers are told -/

theorem step?_trySend (can : s.canOffer o = true) :
    s.step? (.trySend o) = some
      (if s.bus.isClosed || s.hasRoom then s.settle o
        else s.answer o (.error (.queueFull s.bus.capacity))) := by
  simp only [step?, can, Bool.not_true, Bool.false_eq_true, if_false]
  exact (apply_ite some _ _ _).symm

/-- A producer that does not wait is told that the queue is full exactly while the bus is open and no
place is free, and that the bus is closed exactly once the loop has ended; either way nothing else
happens. -/
theorem trySend_answer (can : s.canOffer o = true) :
    ∃ t r, s.step? (.trySend o) = some t ∧ t.answers = s.answers ++ [⟨o, r⟩] ∧
      (r = .error (.queueFull s.bus.capacity) ↔ s.bus.isClosed = false ∧ s.hasRoom = false) ∧
      (r = .error .busClosed ↔ s.bus.isClosed = true) ∧
      (r ≠ .ok () → t = s.answer o r) := by
  have step := step?_trySend can
  by_cases closed : s.bus.isClosed = true
  · refine ⟨_, .error .busClosed, step, ?_⟩
    simp [closed, settle, trySend, answer]
  · have opened : s.bus.isClosed = false := by simpa using closed
    by_cases room : s.hasRoom = true
    · refine ⟨_, .ok (), step, ?_⟩
      have notFull : s.bus.isFull = false := by
        simp only [hasRoom, decide_eq_true_eq] at room
        simp only [isFull, decide_eq_false_iff_not]
        omega
      simp [opened, room, settle, trySend, notFull, answer]
    · refine ⟨_, .error (.queueFull s.bus.capacity), step, ?_⟩
      simp [opened, room, answer]

/-- A send that is answered was accepted by an open bus or refused by a closed one. -/
theorem send_answer (roomy : s.Roomy)
    (h : s.step? (.send o) = some t ∨ s.step? (.resume o) = some t) :
    s.bus.isClosed = false ∧ t.answers = s.answers ∨
      t.answers = s.answers ++ [⟨o, if s.bus.isClosed then .error .busClosed else .ok ()⟩] := by
  rcases h with h | h
  · cases step_of_step? roomy h with
    | accept brought opened room =>
      cases brought
      exact .inr (by simp [opened])
    | refuse brought closed =>
      cases brought
      exact .inr (by simp [closed])
    | wait o can opened noRoom => exact .inl ⟨opened, rfl⟩
  · cases step_of_step? roomy h with
    | accept brought opened room =>
      cases brought <;> exact .inr (by simp [opened])
    | refuse brought closed =>
      cases brought <;> exact .inr (by simp [closed])

/-! ## The whole of it -/

theorem new_eq_ok {capacity : Nat} {b : Bus} (h : Bus.new capacity = .ok b) : b = { capacity } := by
  rw [Bus.new] at h
  split at h
  next => cases h
  next =>
    cases h
    rfl

/-- With a queue of any capacity and observers that withstand what was accepted, in any
interleaving: the loop has shown to each observer in turn the first accepted events, and the others
are still queued or were dropped by the stop, at most as many as the capacity; a collector has
observed what was shown and nothing else; every producer is answered in the order of its offers; and
producers are refused for want of room only while the bus is open and full, and otherwise only once
the loop has ended, as it was told to or for want of senders. -/
theorem delivers_in_order {ω : Type} [Observer ω] {capacity : Nat} {b : Bus}
    {os : List (Collector ⊕ ω)} {actions : List Action} {s : Interleaving (Collector ⊕ ω)}
    (made : Bus.new capacity = .ok b) (run : (start b os).steps? actions = some s)
    (calm : ∀ o ∈ os, Withstands o s.accepted) :
    let shown := s.accepted.take s.bus.dispatched
    (s.bus.dispatched = shown.length ∧ s.accepted = shown ++ s.bus.queue ∧
      s.bus.queue.length ≤ capacity) ∧
    (s.calls = callsOf os.length shown ∧ s.observers = os.map (after · shown) ∧
      s.notices = logs os shown ++
        if s.bus.phase = .stopped then [.busStopped shown.length s.bus.queue.length] else []) ∧
    (∀ (i : Nat) (c : Collector), os[i]? = some (.inl c) →
      s.observers[i]? = some (.inl (c.run (shown.map .observe)))) ∧
    (∀ p, (ofProducer p s.acceptedOffers).Sublist (ofProducer p (offers actions)) ∧
      ofProducer p (offers actions) =
        ofProducer p (s.answers.map (·.offer)) ++ ofProducer p s.pending) ∧
    (s.bus.phase = .running ∨ s.bus.phase = .stopped ∧
      (s.bus.stopping = true ∨ s.bus.senders = 0 ∧ s.bus.queue = [])) ∧
    (s.pending = [] → s.bus.senders ≠ 0 → ∀ o, ∃ t r,
      s.step? (.trySend o) = some t ∧ t.answers = s.answers ++ [⟨o, r⟩] ∧
      (r = .error (.queueFull capacity) ↔
        s.bus.isClosed = false ∧ s.bus.queue.length = capacity) ∧
      (r = .error .busClosed ↔ s.bus.isClosed = true) ∧
      (r ≠ .ok () → t = s.answer o r)) ∧
    (∀ o t, s.step? (.send o) = some t ∨ s.step? (.resume o) = some t →
      s.bus.isClosed = false ∧ t.answers = s.answers ∨
        t.answers = s.answers ++
          [⟨o, if s.bus.isClosed then .error .busClosed else .ok ()⟩]) := by
  obtain rfl := new_eq_ok made
  obtain ⟨roomy, size⟩ := roomy_run run
  obtain ⟨taken, served⟩ := served_run run
  have ordered := ordered_run run
  have alive : s.bus.phase ≠ .failed := by
    rw [served.accepted] at calm
    exact served.alive.2 fun o mem => (calm o mem).of_append
  have shown : s.accepted.take s.bus.dispatched = taken := by
    rw [served.accepted, served.dispatched alive, List.take_left]
  simp only [shown]
  refine ⟨⟨served.dispatched alive, served.accepted, size ▸ roomy.queue⟩,
    ⟨served.calls alive, served.observers alive, served.notices alive⟩, ?_,
    fun p => ⟨ordered.sublist p, ordered.offered p⟩, ?_, ?_, fun o t => send_answer roomy⟩
  · intro i c registered
    rw [served.observers alive, List.getElem?_map, registered, Option.map_some, after_inl,
      Collector.after_eq_run]
  · cases phase : s.bus.phase with
    | running => exact .inl rfl
    | stopped => exact .inr ⟨rfl, ended_run run phase⟩
    | failed => exact absurd phase alive
  · intro nobody senders o
    have can : s.canOffer o = true := by simp [canOffer, nobody, senders]
    have none : s.admitted = [] := (List.append_eq_nil_iff.1 nobody).1
    have full : s.hasRoom = false ↔ s.bus.queue.length = capacity := by
      have queue := roomy.queue
      simp only [hasRoom, none, List.length_nil, decide_eq_false_iff_not]
      omega
    simpa only [full, size] using trySend_answer can

/-- Two collectors, of which one counts as an observer of another kind. -/
def pair : List (Collector ⊕ Collector) :=
  [.inr (.fresh 2 Nat.two_pos), .inl (.fresh 1 Nat.one_pos)]

def sample (stage : Stage) (requestId : String) : Event :=
  { stage, transport := .http, requestId, timestamp := .epoch }

/-- With room for one event a send waits, nobody takes the place that is kept for it, and the stop
drops its event. -/
def contended : List Action :=
  [.cloneSender, .trySend ⟨0, sample .begun "a"⟩, .send ⟨1, sample .ended "a"⟩,
    .trySend ⟨2, sample .begun "b"⟩, .dispatch, .trySend ⟨2, sample .begun "b"⟩,
    .resume ⟨1, sample .ended "a"⟩, .dropSender, .signalStop, .dispatch]

theorem delivers_in_order_contended :
    ∃ s, Bus.new 1 = .ok { capacity := 1 } ∧
      (start { capacity := 1 } pair).steps? contended = some s ∧
      (∀ o ∈ pair, Withstands o s.accepted) ∧
      s.accepted = [sample .begun "a", sample .ended "a"] ∧
      s.bus.queue = [sample .ended "a"] ∧
      s.calls = [(0, sample .begun "a"), (1, sample .begun "a")] ∧
      s.observers[1]? =
        some (.inl ((Collector.fresh 1 Nat.one_pos).run [.observe (sample .begun "a")])) ∧
      ∃ t, s.step? (.trySend ⟨2, sample .begun "b"⟩) = some t ∧
        t = s.answer ⟨2, sample .begun "b"⟩ (.error .busClosed) := by
  have made : Bus.new 1 = .ok { capacity := 1 } := rfl
  have view : ((start { capacity := 1 } pair).steps? contended).map
      (fun s => (s.accepted, s.pending, s.bus)) =
      some ([sample .begun "a", sample .ended "a"], [],
        { capacity := 1, queue := [sample .ended "a"], stopping := true, phase := .stopped
          dispatched := 1 }) := by decide
  obtain ⟨s, run, view⟩ := Option.map_eq_some_iff.1 view
  simp only [Prod.mk.injEq] at view
  obtain ⟨accepted, pending, bus⟩ := view
  have calm : ∀ o ∈ pair, Withstands o s.accepted := by
    rw [accepted]
    decide
  obtain ⟨-, ⟨calls, -⟩, collectors, -, -, tries, -⟩ := delivers_in_order made run calm
  obtain ⟨t, r, step, answers, -, closed, unchanged⟩ :=
    tries pending (by simp [bus]) ⟨2, sample .begun "b"⟩
  obtain rfl := closed.2 (by rw [bus]; rfl)
  rw [accepted, bus] at calls collectors
  refine ⟨s, made, run, calm, accepted, by rw [bus], calls, collectors 1 _ rfl, t, step, ?_⟩
  exact unchanged (by simp)

end RequestMeter.Bus.Interleaving
