import Mathlib.Data.List.Basic
import RequestMeter.Bus.Interleaving
import RequestMeter.Proofs.Bus.Observers

/-! # What a step of the bus can do

`Step` lists the atomic steps with their guards.  An offer that is settled comes straight from its
producer or out of the line, and is accepted exactly while the bus is open; this rests on the places
of the queue being enough for the events in it and for the sends that have a place.
-/
namespace RequestMeter.Bus

variable {ω : Type} [Observer ω]

@[simp] theorem isClosed_eq_false_iff {b : Bus} : b.isClosed = false ↔ b.phase = .running := by
  simp [isClosed]

/-- What a turn of a running loop can do. -/
inductive Turned (b : Bus) (os : List ω) : Turn ω → Prop where
  | stop (ended : b.stopping = true ∨ b.senders = 0 ∧ b.queue = []) : Turned b os (b.stop os)
  | take (e : Event) (rest : List Event) (head : b.queue = e :: rest) (go : b.stopping = false) :
      Turned b os (b.take e rest os)

theorem turned_of_turn? {b : Bus} {os : List ω} {t : Turn ω} (h : b.turn? os = some t) :
    b.isClosed = false ∧ Turned b os t := by
  rw [turn?] at h
  split at h
  next => cases h
  next opened =>
    refine ⟨by simpa using opened, ?_⟩
    split at h
    next stopping =>
      cases h
      exact .stop (.inl stopping)
    next go =>
      split at h
      next e rest head =>
        cases h
        exact .take e rest head (by simpa using go)
      next empty =>
        split at h
        next gone =>
          cases h
          exact .stop (.inr ⟨gone, empty⟩)
        next => cases h

@[simp] theorem queue_take (b : Bus) (e : Event) (rest : List Event) (os : List ω) :
    (b.take e rest os).bus.queue = rest := by
  simp only [take]
  split <;> rfl

@[simp] theorem capacity_take (b : Bus) (e : Event) (rest : List Event) (os : List ω) :
    (b.take e rest os).bus.capacity = b.capacity := by
  simp only [take]
  split <;> rfl

theorem take_of_forall (b : Bus) (e : Event) (rest : List Event) {os : List ω}
    (calm : ∀ o ∈ os, (Observer.observe o e).failed = false) :
    b.take e rest os = {
      bus := { b with queue := rest, dispatched := b.dispatched + 1 }
      observers := os.map fun o => (Observer.observe o e).next
      taken := some (e, os.length)
      notices := os.flatMap fun o => (Observer.observe o e).notices } := by
  rw [take, Delivery.deliver_of_forall calm]
  rfl

theorem phase_take (b : Bus) (e : Event) (rest : List Event) (os : List ω) :
    (b.take e rest os).bus.phase =
      if (Delivery.deliver os e).failed then .failed else b.phase := by
  simp only [take]
  split <;> rfl

@[simp] theorem stopping_take (b : Bus) (e : Event) (rest : List Event) (os : List ω) :
    (b.take e rest os).bus.stopping = b.stopping := by
  simp only [take]
  split <;> rfl

@[simp] theorem senders_take (b : Bus) (e : Event) (rest : List Event) (os : List ω) :
    (b.take e rest os).bus.senders = b.senders := by
  simp only [take]
  split <;> rfl

namespace Interleaving

variable {s t : Interleaving ω} {a : Action} {o : Offer}

def start (b : Bus) (os : List ω) : Interleaving ω := { bus := b, observers := os }

/-- Where an offer that is settled comes from, and what is left of the line. -/
inductive Brought (s : Interleaving ω) : Action → Offer → List Offer → List Offer → Prop where
  | trySend (o : Offer) (can : s.canOffer o = true) :
      Brought s (.trySend o) o s.admitted s.waiting
  | send (o : Offer) (can : s.canOffer o = true) : Brought s (.send o) o s.admitted s.waiting
  | admitted (o : Offer) (mem : o ∈ s.admitted) :
      Brought s (.resume o) o (s.admitted.erase o) s.waiting
  | waiting (o : Offer) (mem : o ∈ s.waiting) (closed : s.bus.isClosed = true) :
      Brought s (.resume o) o s.admitted (s.waiting.erase o)

inductive Step (s : Interleaving ω) : Action → Interleaving ω → Prop where
  | accept {a : Action} {o : Offer} {admitted waiting : List Offer}
      (brought : Brought s a o admitted waiting) (opened : s.bus.isClosed = false)
      (room : s.bus.queue.length + admitted.length < s.bus.capacity) :
      Step s a { s with
        bus := { s.bus with queue := s.bus.queue ++ [o.event] }
        admitted
        waiting
        answers := s.answers ++ [⟨o, .ok ()⟩] }
  | refuse {a : Action} {o : Offer} {admitted waiting : List Offer}
      (brought : Brought s a o admitted waiting) (closed : s.bus.isClosed = true) :
      Step s a { s with admitted, waiting, answers := s.answers ++ [⟨o, .error .busClosed⟩] }
  | full (o : Offer) (can : s.canOffer o = true) (opened : s.bus.isClosed = false)
      (noRoom : s.hasRoom = false) :
      Step s (.trySend o) (s.answer o (.error (.queueFull s.bus.capacity)))
  | wait (o : Offer) (can : s.canOffer o = true) (opened : s.bus.isClosed = false)
      (noRoom : s.hasRoom = false) : Step s (.send o) { s with waiting := s.waiting ++ [o] }
  | turn (t : Turn ω) (opened : s.bus.isClosed = false) (go : Turned s.bus s.observers t) :
      Step s .dispatch (s.turned t).grant
  | signalStop : Step s .signalStop { s with bus := s.bus.signalStop }
  | cloneSender (alive : s.bus.senders ≠ 0) :
      Step s .cloneSender { s with bus := s.bus.cloneSender }
  | dropSender (alive : s.bus.senders ≠ 0) (kept : s.bus.senders = 1 → s.pending = []) :
      Step s .dropSender { s with bus := s.bus.dropSender }

/-- An open bus has places enough for its events and for the sends that have a place, and nobody waits
while a place is free. -/
structure Roomy (s : Interleaving ω) : Prop where
  queue : s.bus.queue.length ≤ s.bus.capacity
  places : s.bus.isClosed = false → s.bus.queue.length + s.admitted.length ≤ s.bus.capacity
  line : s.bus.isClosed = false → s.waiting ≠ [] →
    s.bus.capacity ≤ s.bus.queue.length + s.admitted.length

/-! ## Every possible step follows one of the rules -/

/-- An offer is settled when the bus is closed or has a place for it. -/
theorem step_settle {admitted waiting : List Offer} (brought : Brought s a o admitted waiting)
    (room : s.bus.isClosed = false →
      s.bus.queue.length + admitted.length < s.bus.capacity) :
    Step s a ({ s with admitted, waiting }.settle o) := by
  by_cases closed : s.bus.isClosed = true
  · have refused : s.bus.trySend o.event = .error .busClosed := by simp [trySend, closed]
    simp only [settle, refused, answer]
    exact .refuse brought closed
  · have opened : s.bus.isClosed = false := by simpa using closed
    have fits := room opened
    have accepted : s.bus.trySend o.event =
        .ok { s.bus with queue := s.bus.queue ++ [o.event] } := by
      rw [trySend, if_neg closed, if_neg]
      simp only [isFull, decide_eq_true_eq]
      omega
    simp only [settle, accepted, answer]
    exact .accept brought opened fits

omit [Observer ω] in
/-- What makes a producer wait or go back. -/
theorem no_place {s : Interleaving ω} :
    ¬(s.bus.isClosed || s.hasRoom) = true ↔ s.bus.isClosed = false ∧ s.hasRoom = false := by
  simp

omit [Observer ω] in
theorem place {s : Interleaving ω} (h : (s.bus.isClosed || s.hasRoom) = true)
    (opened : s.bus.isClosed = false) :
    s.bus.queue.length + s.admitted.length < s.bus.capacity := by
  simpa [opened, hasRoom] using h

theorem step_resume (roomy : s.Roomy) (h : s.step? (.resume o) = some t) :
    Step s (.resume o) t := by
  simp only [step?] at h
  split at h
  next mem =>
    cases h
    refine step_settle (.admitted o mem) fun opened => ?_
    have places := roomy.places opened
    have left := List.length_erase_of_mem mem
    have one : 0 < s.admitted.length := List.length_pos_of_mem mem
    omega
  next =>
    simp only [Option.ite_none_right_eq_some, Bool.and_eq_true, decide_eq_true_eq] at h
    obtain ⟨⟨closed, mem⟩, ⟨⟩⟩ := h
    exact step_settle (.waiting o mem closed) fun opened => by simp [closed] at opened

theorem step_of_step? (roomy : s.Roomy) (h : s.step? a = some t) : Step s a t := by
  cases a with
  | trySend o =>
    simp only [step?] at h
    split at h
    next => cases h
    next can =>
      split at h
      next ready =>
        cases h
        exact step_settle (.trySend o (by simpa using can)) (place ready)
      next full =>
        cases h
        obtain ⟨opened, noRoom⟩ := no_place.1 full
        exact .full o (by simpa using can) opened noRoom
  | send o =>
    simp only [step?] at h
    split at h
    next => cases h
    next can =>
      split at h
      next ready =>
        cases h
        exact step_settle (.send o (by simpa using can)) (place ready)
      next full =>
        cases h
        obtain ⟨opened, noRoom⟩ := no_place.1 full
        exact .wait o (by simpa using can) opened noRoom
  | resume o => exact step_resume roomy h
  | dispatch =>
    simp only [step?, Option.map_eq_some_iff] at h
    obtain ⟨t, turn, rfl⟩ := h
    obtain ⟨opened, go⟩ := turned_of_turn? turn
    exact .turn t opened go
  | signalStop =>
    cases h
    exact .signalStop
  | cloneSender =>
    simp only [step?, Option.ite_none_left_eq_some] at h
    obtain ⟨alive, ⟨⟩⟩ := h
    exact .cloneSender alive
  | dropSender =>
    simp only [step?, Option.ite_none_left_eq_some, not_or, not_and, not_not] at h
    obtain ⟨⟨alive, kept⟩, ⟨⟩⟩ := h
    exact .dropSender alive kept

theorem steps?_cons (s : Interleaving ω) (a : Action) (actions : List Action) :
    s.steps? (a :: actions) = (s.step? a).bind (steps? · actions) := by
  rw [steps?, List.foldlM_cons]
  rfl

theorem steps?_append (s : Interleaving ω) (before rest : List Action) :
    s.steps? (before ++ rest) = (s.steps? before).bind (steps? · rest) := by
  rw [steps?, List.foldlM_append]
  rfl

theorem steps?_concat_eq_some {actions : List Action} :
    s.steps? (actions ++ [a]) = some t ↔
      ∃ u, s.steps? actions = some u ∧ u.step? a = some t := by
  rw [steps?_append, Option.bind_eq_some_iff]
  simp only [steps?_cons, Option.bind_eq_some_iff]
  simp [steps?]

/-! ## What the line does not change -/

omit [Observer ω] in
/-- Giving a place to a send that waits moves it within the line and changes nothing else. -/
theorem grant_eq (s : Interleaving ω) :
    ∃ admitted waiting, s.grant = { s with admitted, waiting } := by
  unfold grant
  split
  · split <;> exact ⟨_, _, rfl⟩
  · exact ⟨_, _, rfl⟩

omit [Observer ω] in
@[simp] theorem bus_grant (s : Interleaving ω) : s.grant.bus = s.bus := by
  obtain ⟨admitted, waiting, h⟩ := s.grant_eq
  rw [h]

omit [Observer ω] in
@[simp] theorem answers_grant (s : Interleaving ω) : s.grant.answers = s.answers := by
  obtain ⟨admitted, waiting, h⟩ := s.grant_eq
  rw [h]

end Interleaving

end RequestMeter.Bus
