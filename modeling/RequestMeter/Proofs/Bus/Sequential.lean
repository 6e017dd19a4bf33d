import RequestMeter.Proofs.Bus.Line

/-! # The bus driven by one task

When one task sends and lets the loop run in between, everything that `Bus` does is one of the
schedules of atomic steps: turns of the loop are single turns one after another, and a send that finds
the queue full waits in the line, lets the loop run and goes on.
-/
namespace RequestMeter.Bus

variable {ω : Type} [Observer ω]

def Run.calls (r : Run ω) : List (Nat × Event) :=
  r.taken.flatMap fun (e, shown) => (List.range shown).map fun i => (i, e)

omit [Observer ω] in
theorem Turn.calls_eq (t : Turn ω) :
    t.calls = t.taken.toList.flatMap fun (e, shown) => (List.range shown).map fun i => (i, e) := by
  unfold Turn.calls
  split <;> simp [*]

theorem senders_turns (b : Bus) (os : List ω) (fuel : Nat) :
    (b.turns os fuel).bus.senders = b.senders := by
  induction fuel generalizing b os with
  | zero => rfl
  | succ fuel ih =>
    rw [Bus.turns]
    split
    next => rfl
    next t turn =>
      refine (ih t.bus t.observers).trans ?_
      cases (turned_of_turn? turn).2 with
      | stop ended => rfl
      | take e rest head go => exact senders_take b e rest os

/-! ## Room after a burst -/

/-- A send does not have to wait. -/
def Ready (b : Bus) : Prop := b.isClosed = true ∨ b.queue.length < b.capacity

/-- A turn makes room or ends the loop. -/
theorem ready_turn? {b : Bus} {os : List ω} {t : Turn ω} (h : b.turn? os = some t)
    (fits : b.queue.length ≤ b.capacity) : t.bus.Ready := by
  cases (turned_of_turn? h).2 with
  | stop ended => exact .inl rfl
  | take e rest head go =>
    have shorter : b.queue.length = rest.length + 1 := by simp [head]
    refine .inr ?_
    rw [queue_take, capacity_take]
    omega

theorem Ready.turns {b : Bus} (h : b.Ready) (os : List ω) (fuel : Nat) :
    (b.turns os fuel).bus.Ready := by
  induction fuel generalizing b os with
  | zero => exact h
  | succ fuel ih =>
    rw [Bus.turns]
    split
    next => exact h
    next t turn =>
      refine ih (ready_turn? turn ?_) t.observers
      rcases h with closed | room
      · simp [turn?, closed] at turn
      · exact Nat.le_of_lt room

/-- A burst of the loop leaves no bus that is open and full. -/
theorem ready_bursts {b : Bus} (os : List ω) (positive : 0 < b.capacity)
    (fits : b.queue.length ≤ b.capacity) : (b.bursts os 1).bus.Ready := by
  rw [bursts, Nat.one_mul, burstSize, Bus.turns]
  split
  next none =>
    rw [turn?] at none
    split at none
    next closed => exact .inl closed
    next =>
      split at none
      next => cases none
      next =>
        split at none
        next => cases none
        next empty =>
          refine .inr ?_
          simpa [empty] using positive
  next t turn => exact (ready_turn? turn fits).turns t.observers _

namespace Interleaving

variable {s t : Interleaving ω}

/-! ## Turns -/

def ran (s : Interleaving ω) (r : Run ω) : Interleaving ω :=
  { s with
    bus := r.bus
    observers := r.observers
    calls := s.calls ++ r.calls
    notices := s.notices ++ r.notices }

omit [Observer ω] in
theorem ran_turned (s : Interleaving ω) (t : Turn ω) (r : Run ω) :
    (s.turned t).ran r = s.ran
      { r with taken := t.taken.toList ++ r.taken, notices := t.notices ++ r.notices } := by
  simp [ran, turned, Run.calls, Turn.calls_eq]

/-- A series of turns is a series of steps of the loop, in which sends that wait move up. -/
theorem steps?_turns (s : Interleaving ω) (fuel : Nat) :
    ∃ n admitted waiting, admitted ++ waiting = s.pending ∧
      s.steps? (List.replicate n .dispatch) =
        some { s.ran (s.bus.turns s.observers fuel) with admitted, waiting } := by
  induction fuel generalizing s with
  | zero => exact ⟨0, s.admitted, s.waiting, rfl, by simp [steps?, turns, ran, Run.calls]⟩
  | succ fuel ih =>
    rw [turns]
    cases turn : s.bus.turn? s.observers with
    | none => exact ⟨0, s.admitted, s.waiting, rfl, by simp [steps?, ran, Run.calls]⟩
    | some t =>
      have step : s.step? .dispatch = some (s.turned t).grant := by simp [step?, turn]
      obtain ⟨n, admitted, waiting, line, run⟩ := ih (s.turned t).grant
      refine ⟨n + 1, admitted, waiting, line.trans (pending_grant _), ?_⟩
      obtain ⟨as, ws, moved⟩ := (s.turned t).grant_eq
      rw [List.replicate_succ, steps?_cons, step, Option.bind_some, run, moved, ← ran_turned]
      rfl

/-! ## One send -/

omit [Observer ω] in
theorem settle_ran (s : Interleaving ω) (r : Run ω) (o : Offer) :
    (s.ran r).settle o = match r.bus.trySend o.event with
      | .ok bus => (s.ran { r with bus }).answer o (.ok ())
      | .error e => (s.ran r).answer o (.error e) := by
  cases h : r.bus.trySend o.event with
  | ok bus =>
    simp only [settle, ran, h]
    rfl
  | error e => simp only [settle, ran, h]

theorem step?_send_of_ready (idle : s.pending = []) (alive : s.bus.senders ≠ 0)
    (ready : s.bus.Ready) (o : Offer) : s.step? (.send o) = some (s.settle o) := by
  have none : s.admitted = [] := (List.append_eq_nil_iff.1 idle).1
  have can : s.canOffer o = true := by simp [canOffer, idle, alive]
  rcases ready with closed | room
  · simp [step?, can, closed]
  · simp [step?, can, hasRoom, none, room]

/-- A send that waited alone goes on after a burst of the loop. -/
theorem step?_resume_of_ready (roomy : s.Roomy) (o : Offer) (alone : s.pending = [o])
    (ready : s.bus.Ready) :
    s.step? (.resume o) = some ({ s with admitted := [], waiting := [] }.settle o) := by
  rcases List.append_eq_singleton_iff.1 alone with ⟨admitted, waiting⟩ | ⟨admitted, waiting⟩
  · have closed : s.bus.isClosed = true := by
      rcases ready with closed | room
      · exact closed
      · by_contra opened
        have line := roomy.line (by simpa using opened) (by simp [waiting])
        simp only [admitted, List.length_nil] at line
        omega
    simp [step?, admitted, waiting, closed]
  · simp [step?, admitted, waiting]

theorem steps?_send_after_burst (roomy : s.Roomy) (positive : 0 < s.bus.capacity)
    (idle : s.pending = []) (alive : s.bus.senders ≠ 0) (o : Offer) :
    ∃ n, s.steps? (List.replicate n .dispatch ++ [.send o]) =
      some ((s.ran (s.bus.bursts s.observers 1)).settle o) := by
  obtain ⟨none, nobody⟩ := List.append_eq_nil_iff.1 idle
  obtain ⟨n, admitted, waiting, line, run⟩ := steps?_turns s (1 * burstSize)
  obtain ⟨rfl, rfl⟩ := List.append_eq_nil_iff.1 (line.trans idle)
  have after : s.steps? (List.replicate n .dispatch) =
      some (s.ran (s.bus.bursts s.observers 1)) := by
    rw [run]
    simp [ran, bursts, none, nobody]
  have alive : (s.ran (s.bus.bursts s.observers 1)).bus.senders ≠ 0 := by
    simpa [ran, bursts, senders_turns] using alive
  have send := step?_send_of_ready (s := s.ran (s.bus.bursts s.observers 1)) idle alive
    (ready_bursts s.observers positive roomy.queue) o
  refine ⟨n, ?_⟩
  rw [steps?_append, after, Option.bind_some, steps?_cons, send]
  rfl

/-- A producer that finds the queue full waits in the line while the loop runs for a burst. -/
theorem steps?_send_waiting (roomy : s.Roomy) (positive : 0 < s.bus.capacity)
    (idle : s.pending = []) (alive : s.bus.senders ≠ 0) (opened : s.bus.isClosed = false)
    (full : s.bus.isFull = true) (o : Offer) :
    ∃ n, s.steps? (.send o :: (List.replicate n .dispatch ++ [.resume o])) =
      some ((s.ran (s.bus.bursts s.observers 1)).settle o) := by
  obtain ⟨none, nobody⟩ := List.append_eq_nil_iff.1 idle
  have can : s.canOffer o = true := by simp [canOffer, idle, alive]
  have noRoom : s.hasRoom = false := by simpa [hasRoom, none, isFull] using full
  have wait : s.step? (.send o) = some { s with waiting := s.waiting ++ [o] } := by
    simp [step?, can, opened, noRoom]
  obtain ⟨n, admitted, waiting, line, run⟩ :=
    steps?_turns { s with waiting := s.waiting ++ [o] } (1 * burstSize)
  have alone : admitted ++ waiting = [o] := by simpa [pending, none, nobody] using line
  have settled := (roomy.step (.wait o can opened noRoom)).steps run
  have resume := step?_resume_of_ready settled.1 o alone
    (ready_bursts s.observers positive roomy.queue)
  refine ⟨n, ?_⟩
  rw [steps?_cons, wait, Option.bind_some, steps?_append, run, Option.bind_some, steps?_cons, resume]
  simp [steps?, ran, bursts, none, nobody]

/-- A send of `Bus` is a schedule in which one producer offers one event. -/
theorem steps?_send (roomy : s.Roomy) (positive : 0 < s.bus.capacity) (idle : s.pending = [])
    (alive : s.bus.senders ≠ 0) (o : Offer) (yields : Bool) :
    let r := s.bus.send s.observers o.event yields
    ∃ actions, offers actions = [o] ∧ s.steps? actions = some ((s.ran r.1).answer o r.2) := by
  -- Whether or not the loop runs first, in the end the offer is settled.
  suffices settled : ∃ actions, offers actions = [o] ∧ s.steps? actions =
      some ((s.ran (if (s.bus.isFull || yields) && !s.bus.isClosed then s.bus.bursts s.observers 1
        else { bus := s.bus, observers := s.observers })).settle o) by
    obtain ⟨actions, offered, run⟩ := settled
    refine ⟨actions, offered, run.trans ?_⟩
    rw [settle_ran, send]
    generalize (if (s.bus.isFull || yields) && !s.bus.isClosed then _ else _ : Run ω) = r
    cases r.bus.trySend o.event <;> rfl
  by_cases busy : ((s.bus.isFull || yields) && !s.bus.isClosed) = true
  · rw [if_pos busy]
    obtain ⟨busy, opened⟩ : (s.bus.isFull || yields) = true ∧ s.bus.isClosed = false := by
      simpa using busy
    by_cases full : s.bus.isFull = true
    · obtain ⟨n, run⟩ := steps?_send_waiting roomy positive idle alive opened full o
      exact ⟨_, by simp [offers, Action.offer?], run⟩
    · obtain ⟨n, run⟩ := steps?_send_after_burst roomy positive idle alive o
      exact ⟨_, by simp [offers, Action.offer?], run⟩
  · rw [if_neg busy]
    have ready : s.bus.Ready := by
      by_cases closed : s.bus.isClosed = true
      · exact .inl closed
      · have room : s.bus.isFull = false := by
          cases full : s.bus.isFull with
          | false => rfl
          | true => simp [full, closed] at busy
        exact .inr (by simpa [isFull] using room)
    refine ⟨[.send o], rfl, ?_⟩
    rw [steps?_cons, step?_send_of_ready idle alive ready]
    simp [steps?, ran, Run.calls]

/-! ## Shutdown -/

/-- A shutdown of `Bus` is a schedule in which the loop is told to stop and does its last turns. -/
theorem steps?_shutdown (s : Interleaving ω) :
    ∃ n t, s.steps? (.signalStop :: List.replicate n .dispatch) = some t ∧
      t.bus = (s.bus.shutdown s.observers).1.bus ∧
      t.observers = (s.bus.shutdown s.observers).1.observers := by
  obtain ⟨n, admitted, waiting, -, run⟩ :=
    steps?_turns { s with bus := s.bus.signalStop } (s.bus.signalStop.queue.length + 1)
  refine ⟨n, _, run, ?_⟩
  rw [shutdown]
  dsimp only
  split <;> exact ⟨rfl, rfl⟩

end Interleaving

end RequestMeter.Bus
