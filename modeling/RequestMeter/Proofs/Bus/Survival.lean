import RequestMeter.Proofs.Bus.Delivery

/-! # What ends dispatch

A loop that was not told to stop and has a sender goes on until an observer fails.  A collector fails
when the bytes of one request pass the largest count, or the number of its events passes 32 bits, so two
events of one request can close the bus for good; as long as all sums are within their bounds it stays
open.
-/
namespace RequestMeter.Bus

open Observer

variable {ω : Type} [Observer ω]

theorem shutdown_of_running {b : Bus} (os : List ω) (running : b.phase = .running) :
    (b.shutdown os).2 = b.dispatched := by
  have opened : b.signalStop.isClosed = false := isClosed_eq_false_iff.2 running
  have first : b.signalStop.turn? os = some (b.signalStop.stop os) := by
    rw [turn?, if_neg (by simp [opened])]
    rfl
  have rest (fuel : Nat) : ({ b.signalStop with phase := .stopped } : Bus).turns os fuel =
      { bus := { b.signalStop with phase := .stopped }, observers := os } := by
    cases fuel <;> rfl
  have drained : (b.signalStop.drain os).bus = { b.signalStop with phase := .stopped } := by
    rw [drain, turns, first]
    exact congrArg Run.bus (rest _)
  rw [shutdown]
  simp only [drained]
  rfl

theorem shutdown_of_failed {b : Bus} (os : List ω) (failed : b.phase = .failed) :
    (b.shutdown os).2 = 0 := by
  have closed : b.signalStop.isClosed = true := by simp [isClosed, signalStop, failed]
  have drained : (b.signalStop.drain os).bus = b.signalStop := by
    rw [drain, turns, turn?, if_pos closed]
  rw [shutdown]
  simp only [drained]
  rw [if_pos (show b.signalStop.phase = .failed from failed)]

namespace Interleaving

variable {s t : Interleaving ω} {os : List ω} {a : Action} {o : Offer} {actions : List Action}

/-! ## A closed bus stays closed -/

theorem isClosed_of_step (h : Step s a t) (closed : s.bus.isClosed = true) :
    t.bus.isClosed = true := by
  cases h with
  | accept _ opened | turn _ opened => simp [closed] at opened
  | _ => exact closed

def Honest (s : Interleaving ω) : Prop :=
  ∀ answer ∈ s.answers, answer.result = .error .busClosed → s.bus.isClosed = true

theorem Honest.step (honest : Honest s) (step : Step s a t) : Honest t := by
  intro answer mem told
  by_cases old : answer ∈ s.answers
  · exact isClosed_of_step step (honest answer old told)
  · cases step with
    | accept brought opened room =>
      obtain rfl : answer = _ := by simpa [old] using mem
      cases told
    | refuse brought closed => exact closed
    | full o can opened noRoom =>
      obtain rfl : answer = _ := by simpa [old, Interleaving.answer] using mem
      cases told
    | turn t opened go =>
      rw [answers_grant] at mem
      exact absurd mem old
    | _ => exact absurd mem old

theorem honest_run {capacity : Nat} (h : (start { capacity } os).steps? actions = some s) :
    Honest s :=
  run_induction (motive := fun _ s => Honest s) (fun answer mem => by simp [start] at mem)
    Honest.step h

/-! ## Events that were taken -/

/-- The events that the loop took: those that were accepted and are not in the queue. -/
def taken (s : Interleaving ω) : List Event :=
  s.accepted.take (s.accepted.length - s.bus.queue.length)

theorem Served.taken_eq {es : List Event} (h : Served os s es) : s.taken = es := by
  rw [taken, h.accepted]
  simp

/-- A loop that goes on has not failed, and one that was not told to stop and has a sender ends only
by failing. -/
theorem open_iff_withstands {capacity : Nat} (run : (start { capacity } os).steps? actions = some s)
    (go : s.bus.stopping = false) (alive : s.bus.senders ≠ 0) :
    s.bus.isClosed = false ↔ ∀ o ∈ os, Withstands o s.taken := by
  obtain ⟨es, served⟩ := served_run run
  rw [served.taken_eq, ← served.alive, isClosed_eq_false_iff]
  have ended := ended_run run
  cases phase : s.bus.phase with
  | running => simp
  | failed => simp
  | stopped =>
    rcases ended phase with stopping | gone
    · simp [stopping] at go
    · exact absurd gone.1 alive

theorem step?_dispatch {e : Event} {rest : List Event} (opened : s.bus.isClosed = false)
    (go : s.bus.stopping = false) (head : s.bus.queue = e :: rest) :
    s.step? .dispatch = some (s.turned (s.bus.take e rest s.observers)).grant := by
  simp [step?, turn?, opened, go, head]

/-! ## Collectors -/

/-- Collectors that have seen nothing, among observers that never fail, withstand just the events
whose sums stay in bounds. -/
theorem forall_withstands_iff {os : List (Collector ⊕ ω)} {es : List Event}
    (registered : ∃ c, .inl c ∈ os)
    (fresh : ∀ c, .inl c ∈ os → ∃ size positive, c = Collector.fresh size positive)
    (others : ∀ o, .inr o ∈ os → ∀ es, Withstands (.inr o : Collector ⊕ ω) es) :
    (∀ o ∈ os, Withstands o es) ↔ Collector.InBounds (es.map .observe) := by
  constructor
  · intro all
    obtain ⟨c, mem⟩ := registered
    obtain ⟨size, positive, rfl⟩ := fresh c mem
    exact (Collector.withstands_fresh_iff es).1 ((withstands_inl _ es).1 (all _ mem))
  · intro bounds o mem
    cases o with
    | inl c =>
      obtain ⟨size, positive, rfl⟩ := fresh c mem
      exact (withstands_inl _ es).2 ((Collector.withstands_fresh_iff es).2 bounds)
    | inr o => exact others o mem es

/-- A bus with collectors, and otherwise with observers that never fail, is open exactly as long as
the events that the loop took are in bounds, that is, as long as the bytes of each request add up to
counts and the number of its events has 32 bits, if it was not told to stop and has a sender.  While
it is open nobody was told that it is closed, the next event is taken and reaches every collector if
it fits as well, and a shutdown counts all events that were taken.  Once it is closed no producer
gets through, and a shutdown counts nothing. -/
theorem open_iff_inBounds {ω : Type} [Observer ω] {capacity : Nat} {b : Bus}
    {os : List (Collector ⊕ ω)} {actions : List Action} {s : Interleaving (Collector ⊕ ω)}
    (made : Bus.new capacity = .ok b) (run : (start b os).steps? actions = some s)
    (registered : ∃ c, .inl c ∈ os)
    (fresh : ∀ c, .inl c ∈ os → ∃ size positive, c = Collector.fresh size positive)
    (others : ∀ o, .inr o ∈ os → ∀ es, Withstands (.inr o : Collector ⊕ ω) es)
    (go : s.bus.stopping = false) (alive : s.bus.senders ≠ 0) :
    (s.bus.isClosed = false ↔ Collector.InBounds (s.taken.map .observe)) ∧
    (s.bus.isClosed = false →
      (∀ answer ∈ s.answers, answer.result ≠ .error .busClosed) ∧
      (s.bus.shutdown s.observers).2 = s.taken.length ∧
      ∀ e rest, s.bus.queue = e :: rest →
        ∃ t, s.step? .dispatch = some t ∧ t.taken = s.taken ++ [e] ∧ t.bus.queue = rest ∧
          (t.bus.isClosed = false ↔ Collector.InBounds (t.taken.map .observe)) ∧
          (t.bus.isClosed = false → ∀ (i : Nat) (c : Collector), os[i]? = some (.inl c) →
            t.observers[i]? = some (.inl (c.run (t.taken.map .observe))))) ∧
    (s.bus.isClosed = true →
      (s.bus.shutdown s.observers).2 = 0 ∧
      ∀ o, s.canOffer o = true →
        s.step? (.trySend o) = some (s.answer o (.error .busClosed))) := by
  obtain rfl := new_eq_ok made
  have inBounds (es : List Event) :
      (∀ o ∈ os, Withstands o es) ↔ Collector.InBounds (es.map .observe) :=
    forall_withstands_iff registered fresh others
  have openIff := (open_iff_withstands run go alive).trans (inBounds s.taken)
  obtain ⟨es, served⟩ := served_run run
  refine ⟨openIff, fun opened => ?_, fun closed => ?_⟩
  · have running := isClosed_eq_false_iff.1 opened
    refine ⟨fun answer mem told => ?_, ?_, fun e rest head => ?_⟩
    · simp [honest_run run answer mem told] at opened
    · rw [shutdown_of_running _ running, served.dispatched (by simp [running]), served.taken_eq]
    · have step := step?_dispatch opened go head
      have after := (served.take running head).grant
      have next := open_iff_withstands (steps?_concat_eq_some.2 ⟨s, run, step⟩)
        (by simpa [turned] using go) (by simpa [turned] using alive)
      refine ⟨_, step, by rw [after.taken_eq, served.taken_eq], by simp [turned],
        next.trans (inBounds _), fun still i c here => ?_⟩
      have observers := after.observers (by rw [isClosed_eq_false_iff.1 still]; decide)
      rw [observers, List.getElem?_map, here, Option.map_some, after_inl, Collector.after_eq_run,
        after.taken_eq]
  · have failed : s.bus.phase = .failed := by
      have bounds := mt openIff.2 (by simp [closed])
      by_contra alive
      exact bounds ((inBounds _).1 (by rw [served.taken_eq]; exact served.alive.1 alive))
    refine ⟨shutdown_of_failed _ failed, fun o can => ?_⟩
    obtain ⟨t, r, step, -, -, told, unchanged⟩ := trySend_answer can
    obtain rfl := told.2 closed
    rw [step, unchanged (by simp)]

def lone : List (Collector ⊕ Collector) := [.inl (.fresh 2 Nat.two_pos)]

def payload (requestId : String) (bytes : UInt64) : Event :=
  { sample .inPayload requestId with payload := .bytes bytes }

/-- Two events of different requests, each with as many bytes as a count can hold. -/
def apart : List Action :=
  [.trySend ⟨0, payload "a" 18446744073709551615⟩, .trySend ⟨0, payload "b" 18446744073709551615⟩,
    .dispatch, .dispatch]

theorem open_iff_inBounds_apart :
    ∃ s, Bus.new 4 = .ok { capacity := 4 } ∧
      (start { capacity := 4 } lone).steps? apart = some s ∧
      s.taken = [payload "a" 18446744073709551615, payload "b" 18446744073709551615] ∧
      Collector.InBounds (s.taken.map .observe) ∧ (s.bus.shutdown s.observers).2 = 2 := by
  have made : Bus.new 4 = .ok { capacity := 4 } := rfl
  have view : ((start { capacity := 4 } lone).steps? apart).map (fun s => (s.taken, s.bus)) =
      some ([payload "a" 18446744073709551615, payload "b" 18446744073709551615],
        { capacity := 4, dispatched := 2 }) := by decide
  obtain ⟨s, run, view⟩ := Option.map_eq_some_iff.1 view
  simp only [Prod.mk.injEq] at view
  obtain ⟨taken, bus⟩ := view
  have opened : s.bus.isClosed = false := by
    rw [bus]
    rfl
  have fresh : ∀ c, .inl c ∈ lone → ∃ size positive, c = Collector.fresh size positive := by
    intro c mem
    exact ⟨2, Nat.two_pos, by simpa [lone] using mem⟩
  have others : ∀ o, .inr o ∈ lone → ∀ es, Withstands (.inr o : Collector ⊕ Collector) es := by
    intro o mem
    simp [lone] at mem
  obtain ⟨openIff, healthy, -⟩ := open_iff_inBounds made run ⟨_, List.mem_singleton_self _⟩ fresh
    others (by rw [bus]) (by rw [bus]; decide)
  refine ⟨s, made, run, taken, openIff.1 opened, ?_⟩
  rw [(healthy opened).2.1, taken]
  rfl

/-- Two events of one request whose bytes pass the largest count by one. -/
def overflowing : List Action :=
  [.trySend ⟨0, payload "a" 18446744073709551615⟩, .trySend ⟨0, payload "a" 1⟩, .dispatch, .dispatch]

/-- Nobody told the loop to stop and the sender is there, but after two events that were handed to the
collector the bus is closed, the next event is refused and a shutdown counts nothing. -/
theorem closed_overflowing :
    ∃ s, (start { capacity := 4 } lone).steps? overflowing = some s ∧
      s.calls = [(0, payload "a" 18446744073709551615), (0, payload "a" 1)] ∧
      s.bus.stopping = false ∧ s.bus.senders = 1 ∧ s.bus.isClosed = true ∧
      s.step? (.trySend ⟨0, sample .ended "a"⟩) =
        some (s.answer ⟨0, sample .ended "a"⟩ (.error .busClosed)) ∧
      (s.bus.shutdown s.observers).2 = 0 := by
  have view : ((start { capacity := 4 } lone).steps? overflowing).map
      (fun s => (s.calls, s.pending, s.bus)) =
      some ([(0, payload "a" 18446744073709551615), (0, payload "a" 1)], [],
        { capacity := 4, phase := .failed, dispatched := 1 }) := by decide
  obtain ⟨s, run, view⟩ := Option.map_eq_some_iff.1 view
  simp only [Prod.mk.injEq] at view
  obtain ⟨calls, pending, bus⟩ := view
  have closed : s.bus.isClosed = true := by
    rw [bus]
    rfl
  have can : s.canOffer ⟨0, sample .ended "a"⟩ = true := by simp [canOffer, pending, bus]
  obtain ⟨t, r, step, -, -, told, unchanged⟩ := trySend_answer can
  obtain rfl := told.2 closed
  refine ⟨s, run, calls, by rw [bus], by rw [bus], closed, ?_, ?_⟩
  · rw [step, unchanged (by simp)]
  · exact shutdown_of_failed _ (by rw [bus])

end Interleaving

end RequestMeter.Bus
