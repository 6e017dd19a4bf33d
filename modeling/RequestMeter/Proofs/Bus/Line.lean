import Mathlib.Data.List.Induction
import RequestMeter.Proofs.Bus.Step

/-! # The queue and the line in front of it

The queue never has more events than its capacity, and no send waits while a place is free.  Every
producer is answered in the order in which it made its offers, and waits for one answer at most.
-/
namespace RequestMeter.Bus.Interleaving

variable {ω : Type} [Observer ω] {s t : Interleaving ω} {a : Action} {o : Offer}
  {admitted waiting : List Offer} {actions : List Action}

/-! ## Room -/

theorem capacity_of_step (h : Step s a t) : t.bus.capacity = s.bus.capacity := by
  cases h with
  | turn t opened go =>
    rw [bus_grant]
    cases go with
    | stop ended => rfl
    | take e rest head go => exact capacity_take s.bus e rest s.observers
  | _ => rfl

omit [Observer ω] in
/-- Keeping a free place for the first send that waits restores the balance of an open bus. -/
theorem Roomy.grant (queue : s.bus.queue.length ≤ s.bus.capacity)
    (places : s.bus.isClosed = false → s.bus.queue.length + s.admitted.length ≤ s.bus.capacity)
    (line : s.bus.isClosed = false → s.waiting ≠ [] →
      s.bus.capacity ≤ s.bus.queue.length + s.admitted.length + 1) : Roomy s.grant := by
  refine ⟨by rwa [bus_grant], ?_, ?_⟩ <;> rw [bus_grant] <;> intro opened
  · have h := places opened
    unfold Interleaving.grant
    split
    next o rest waits =>
      split
      next room =>
        simp only [hasRoom, decide_eq_true_eq] at room
        simp only [List.length_append, List.length_singleton]
        omega
      next => exact h
    next => exact h
  · have h := line opened
    unfold Interleaving.grant
    split
    next o rest waits =>
      specialize h (by simp [waits])
      split
      next room =>
        intro _
        simp only [List.length_append, List.length_singleton]
        omega
      next noRoom =>
        intro _
        simpa [hasRoom] using noRoom
    next empty =>
      intro waits
      exact absurd empty waits

theorem Roomy.step (roomy : s.Roomy) (h : Step s a t) : t.Roomy := by
  cases h with
  | accept brought opened room =>
    constructor <;> simp only [List.length_append, List.length_singleton]
    · omega
    · intro _
      omega
    · intro _ waits
      have line := roomy.line opened
      cases brought with
      | trySend o can | send o can =>
        have := line waits
        omega
      | admitted o mem =>
        have left := List.length_erase_of_mem mem
        have := line waits
        omega
      | waiting o mem closed => simp [closed] at opened
  | refuse brought closed =>
    refine ⟨roomy.queue, fun opened => ?_, fun opened => ?_⟩ <;>
      exact absurd (closed.symm.trans opened) (by decide)
  | full o can opened noRoom => exact ⟨roomy.queue, roomy.places, roomy.line⟩
  | wait o can opened noRoom =>
    refine ⟨roomy.queue, roomy.places, fun _ _ => ?_⟩
    simpa [hasRoom] using noRoom
  | turn t opened go =>
    have places := roomy.places opened
    have line := roomy.line opened
    cases go with
    | stop ended =>
      apply Roomy.grant
      · exact roomy.queue
      · intro running
        cases running
      · intro running
        cases running
    | take e rest head go =>
      have shorter : s.bus.queue.length = rest.length + 1 := by simp [head]
      apply Roomy.grant <;> simp only [turned, queue_take, capacity_take]
      · omega
      · intro _
        omega
      · intro _ waits
        have := line waits
        omega
  | signalStop => exact ⟨roomy.queue, roomy.places, roomy.line⟩
  | cloneSender alive => exact ⟨roomy.queue, roomy.places, roomy.line⟩
  | dropSender alive kept => exact ⟨roomy.queue, roomy.places, roomy.line⟩

theorem Roomy.steps (roomy : s.Roomy) (h : s.steps? actions = some t) :
    t.Roomy ∧ t.bus.capacity = s.bus.capacity := by
  induction actions using List.reverseRecOn generalizing t with
  | nil =>
    cases h
    exact ⟨roomy, rfl⟩
  | append_singleton before a ih =>
    obtain ⟨u, run, next⟩ := steps?_concat_eq_some.1 h
    obtain ⟨roomy, capacity⟩ := ih run
    have step := step_of_step? roomy next
    exact ⟨roomy.step step, (capacity_of_step step).trans capacity⟩

theorem roomy_run {capacity : Nat} {os : List ω}
    (h : (start { capacity } os).steps? actions = some s) :
    s.Roomy ∧ s.bus.capacity = capacity := by
  have roomy : (start { capacity } os).Roomy :=
    ⟨Nat.zero_le _, fun _ => Nat.zero_le _, fun _ waits => absurd rfl waits⟩
  exact roomy.steps h

/-- What holds at the start and is kept by every step that follows a rule holds after a run. -/
theorem run_induction {capacity : Nat} {os : List ω}
    {motive : List Action → Interleaving ω → Prop} (init : motive [] (start { capacity } os))
    (next : ∀ {before s a t}, motive before s → Step s a t → motive (before ++ [a]) t)
    (h : (start { capacity } os).steps? actions = some s) : motive actions s := by
  induction actions using List.reverseRecOn generalizing s with
  | nil =>
    cases h
    exact init
  | append_singleton before a ih =>
    obtain ⟨u, run, step⟩ := steps?_concat_eq_some.1 h
    exact next (ih run) (step_of_step? (roomy_run run).1 step)

/-! ## Producers -/

def ofProducer (p : Nat) (offers : List Offer) : List Offer := offers.filter (·.producer = p)

def offers (actions : List Action) : List Offer := actions.filterMap Action.offer?

/-- What a producer has offered is what it was answered, in the same order, and then at most one offer
without an answer. -/
structure Ordered (actions : List Action) (s : Interleaving ω) : Prop where
  offered : ∀ p, ofProducer p (offers actions) =
    ofProducer p (s.answers.map (·.offer)) ++ ofProducer p s.pending
  once : ∀ p, (ofProducer p s.pending).length ≤ 1

@[simp] theorem ofProducer_append (p : Nat) (xs ys : List Offer) :
    ofProducer p (xs ++ ys) = ofProducer p xs ++ ofProducer p ys := List.filter_append ..

@[simp] theorem ofProducer_nil (p : Nat) : ofProducer p [] = [] := rfl

theorem ofProducer_singleton_of_ne {p : Nat} (h : o.producer ≠ p) : ofProducer p [o] = [] := by
  simp [ofProducer, h]

theorem offers_concat (before : List Action) (a : Action) :
    offers (before ++ [a]) = offers before ++ a.offer?.toList := by
  rw [offers, List.filterMap_append, offers]
  cases h : a.offer? <;> simp [h]

omit [Observer ω] in
theorem ofProducer_pending_of_canOffer (can : s.canOffer o = true) :
    ofProducer o.producer s.pending = [] := by
  simp only [canOffer, Bool.and_eq_true, List.all_eq_true, decide_eq_true_eq] at can
  simpa [ofProducer] using can.2

theorem eq_of_perm_of_length_le_one {xs ys : List Offer} (perm : xs.Perm ys)
    (h : xs.length ≤ 1) : xs = ys := by
  rcases xs with - | ⟨x, - | ⟨y, xs⟩⟩
  · exact perm.nil_eq
  · exact perm.singleton_eq
  · simp at h

omit [Observer ω] in
theorem Brought.pending (h : Brought s a o admitted waiting) :
    a.offer? = some o ∧ s.canOffer o = true ∧ admitted ++ waiting = s.pending ∨
      a.offer? = none ∧ s.pending.Perm (o :: (admitted ++ waiting)) := by
  cases h with
  | trySend o can | send o can => exact .inl ⟨rfl, can, rfl⟩
  | admitted o mem => exact .inr ⟨rfl, (List.perm_cons_erase mem).append_right _⟩
  | waiting o mem closed =>
    exact .inr ⟨rfl, ((List.perm_cons_erase mem).append_left _).trans List.perm_middle⟩

omit [Observer ω] in
/-- An offer that is settled is the next one of its producer. -/
theorem Brought.next (h : Brought s a o admitted waiting) {p : Nat}
    (once : (ofProducer p s.pending).length ≤ 1) :
    ofProducer p s.pending ++ ofProducer p a.offer?.toList =
      ofProducer p [o] ++ ofProducer p (admitted ++ waiting) := by
  rcases h.pending with ⟨offered, can, left⟩ | ⟨offered, perm⟩
  · rw [offered, left, Option.toList_some]
    by_cases own : o.producer = p
    · rw [← own, ofProducer_pending_of_canOffer can]
      simp
    · simp [ofProducer_singleton_of_ne own]
  · rw [offered, Option.toList_none, ofProducer_nil, List.append_nil, ← ofProducer_append]
    exact eq_of_perm_of_length_le_one (perm.filter _) once

omit [Observer ω] in
/-- An offer that is settled moves from the pending ones of its producer to the answered ones. -/
theorem Ordered.settle (ordered : Ordered actions s) (h : Brought s a o admitted waiting)
    (pending : t.pending = admitted ++ waiting)
    (answers : t.answers.map (·.offer) = s.answers.map (·.offer) ++ [o]) :
    Ordered (actions ++ [a]) t := by
  constructor <;> intro p
  · rw [offers_concat, ofProducer_append, ordered.offered p, pending, answers, ofProducer_append,
      List.append_assoc, h.next (ordered.once p), List.append_assoc]
  · have next := congrArg List.length (h.next (ordered.once p))
    have once := ordered.once p
    simp only [List.length_append] at next
    rw [pending]
    rcases h.pending with ⟨offered, -, left⟩ | ⟨offered, -⟩
    · rwa [left]
    · rw [offered, Option.toList_none, ofProducer_nil, List.length_nil] at next
      omega

omit [Observer ω] in
/-- A step that offers nothing and leaves the line and the answers alone keeps every order. -/
theorem Ordered.of_eq (ordered : Ordered actions s) (offered : a.offer? = none)
    (pending : t.pending = s.pending) (answers : t.answers = s.answers) :
    Ordered (actions ++ [a]) t := by
  constructor <;> intro p
  · rw [offers_concat, offered, pending, answers, Option.toList_none, List.append_nil]
    exact ordered.offered p
  · rw [pending]
    exact ordered.once p

omit [Observer ω] in
@[simp] theorem pending_grant (s : Interleaving ω) : s.grant.pending = s.pending := by
  unfold grant
  split
  next o rest waits =>
    split
    · simp [pending, waits]
    · rfl
  next => rfl

theorem Ordered.step (ordered : Ordered actions s) (h : Step s a t) :
    Ordered (actions ++ [a]) t := by
  cases h with
  | accept brought opened room => exact ordered.settle brought rfl (by simp)
  | refuse brought closed => exact ordered.settle brought rfl (by simp)
  | full o can opened noRoom => exact ordered.settle (.trySend o can) rfl (by simp [answer])
  | wait o can opened noRoom =>
    have pending : ({ s with waiting := s.waiting ++ [o] } : Interleaving ω).pending =
        s.pending ++ [o] := by simp [Interleaving.pending]
    constructor <;> intro p
    · rw [offers_concat, pending, ofProducer_append, ofProducer_append, ordered.offered p,
        List.append_assoc]
      rfl
    · rw [pending, ofProducer_append]
      by_cases own : o.producer = p
      · rw [← own, ofProducer_pending_of_canOffer can]
        simp [ofProducer]
      · simpa [ofProducer_singleton_of_ne own] using ordered.once p
  | turn t opened go =>
    exact ordered.of_eq rfl (pending_grant (s.turned t)) (answers_grant (s.turned t))
  | signalStop => exact ordered.of_eq rfl rfl rfl
  | cloneSender alive => exact ordered.of_eq rfl rfl rfl
  | dropSender alive kept => exact ordered.of_eq rfl rfl rfl

theorem ordered_run {capacity : Nat} {os : List ω}
    (h : (start { capacity } os).steps? actions = some s) : Ordered actions s :=
  run_induction ⟨fun _ => rfl, fun _ => Nat.zero_le _⟩ Ordered.step h

/-! ## What was accepted -/

def acceptedOffers (s : Interleaving ω) : List Offer :=
  (s.answers.filter Answer.accepted).map (·.offer)

def accepted (s : Interleaving ω) : List Event := s.acceptedOffers.map (·.event)

omit [Observer ω] in
theorem accepted_of_ok (h : t.answers = s.answers ++ [⟨o, .ok ()⟩]) :
    t.accepted = s.accepted ++ [o.event] := by
  simp [accepted, acceptedOffers, h, List.filter_cons, Answer.accepted, Except.isOk, Except.toBool]

omit [Observer ω] in
theorem accepted_of_error {e : MeterError} (h : t.answers = s.answers ++ [⟨o, .error e⟩]) :
    t.accepted = s.accepted := by
  simp [accepted, acceptedOffers, h, Answer.accepted, Except.isOk, Except.toBool]

omit [Observer ω] in
/-- What was accepted of a producer comes in the order in which it was offered. -/
theorem Ordered.sublist (ordered : Ordered actions s) (p : Nat) :
    (ofProducer p s.acceptedOffers).Sublist (ofProducer p (offers actions)) := by
  have answered : s.acceptedOffers.Sublist (s.answers.map (·.offer)) := List.filter_sublist.map _
  rw [ordered.offered p]
  exact (answered.filter _).trans (List.sublist_append_left _ _)

end RequestMeter.Bus.Interleaving
