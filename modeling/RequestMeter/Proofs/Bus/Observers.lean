import RequestMeter.Bus.Observer
import RequestMeter.Collector.Observer
import RequestMeter.Proofs.Collector.Demultiplexing

/-! # Observers over a series of events

What observers become and log when they are shown some events one by one, and when none of them fails.
A collector withstands exactly the events whose bytes stay counts.
-/
namespace RequestMeter

namespace Observer

variable {ω : Type} [Observer ω]

def after (o : ω) (es : List Event) : ω := es.foldl (fun o e => (observe o e).next) o

/-- An observer fails on none of some events. -/
def Withstands : ω → List Event → Prop
  | _, [] => True
  | o, e :: es => (observe o e).failed = false ∧ Withstands (observe o e).next es

instance decidableWithstands : (o : ω) → (es : List Event) → Decidable (Withstands o es)
  | _, [] => inferInstanceAs (Decidable True)
  | o, e :: es =>
    have := decidableWithstands (observe o e).next es
    inferInstanceAs (Decidable (_ ∧ _))

/-- What several observers log, event after event and in each event one observer after another. -/
def logs (os : List ω) : List Event → List Notice
  | [] => []
  | e :: es =>
    (os.flatMap fun o => (observe o e).notices) ++ logs (os.map fun o => (observe o e).next) es

@[simp] theorem after_nil (o : ω) : after o [] = o := rfl

theorem after_concat (o : ω) (es : List Event) (e : Event) :
    after o (es ++ [e]) = (observe (after o es) e).next := List.foldl_append

theorem withstands_concat {o : ω} {es : List Event} {e : Event} :
    Withstands o (es ++ [e]) ↔ Withstands o es ∧ (observe (after o es) e).failed = false := by
  induction es generalizing o with
  | nil => simp [Withstands]
  | cons x es ih => simp [Withstands, ih, and_assoc, after]

theorem Withstands.of_append {o : ω} {es fs : List Event} (h : Withstands o (es ++ fs)) :
    Withstands o es := by
  induction fs using List.reverseRecOn with
  | nil => simpa using h
  | append_singleton fs e ih =>
    rw [← List.append_assoc] at h
    exact ih (withstands_concat.1 h).1

theorem logs_concat (os : List ω) (es : List Event) (e : Event) :
    logs os (es ++ [e]) =
      logs os es ++ (os.map (after · es)).flatMap fun o => (observe o e).notices := by
  induction es generalizing os with
  | nil => simp [logs]
  | cons x es ih =>
    simp only [List.cons_append, logs, ih, List.append_assoc, List.map_map]
    rfl

/-! ## Observers of two kinds -/

variable {α β : Type} [Observer α] [Observer β]

@[simp] theorem after_inl (a : α) (es : List Event) :
    after (Sum.inl a : α ⊕ β) es = .inl (after a es) := by
  induction es generalizing a with
  | nil => rfl
  | cons e es ih => exact ih (observe a e).next

@[simp] theorem withstands_inl (a : α) (es : List Event) :
    Withstands (Sum.inl a : α ⊕ β) es ↔ Withstands a es := by
  induction es generalizing a with
  | nil => exact Iff.rfl
  | cons e es ih => exact and_congr Iff.rfl (ih (observe a e).next)

end Observer

/-! ## One event -/

namespace Delivery

open Observer

variable {ω : Type} [Observer ω] {os : List ω} {e : Event}

/-- An event reaches all observers when none of them fails. -/
theorem deliver_of_forall (h : ∀ o ∈ os, (observe o e).failed = false) :
    deliver os e = {
      observers := os.map fun o => (observe o e).next
      shown := os.length
      notices := os.flatMap fun o => (observe o e).notices
      failed := false } := by
  induction os with
  | nil => rfl
  | cons o os ih =>
    have first := h o List.mem_cons_self
    have rest := ih fun o ho => h o (List.mem_cons_of_mem _ ho)
    simp [deliver, first, rest]

theorem failed_deliver_iff : (deliver os e).failed = true ↔ ∃ o ∈ os, (observe o e).failed = true := by
  induction os with
  | nil => simp [deliver]
  | cons o os ih =>
    rw [deliver]
    split <;> simp_all

end Delivery

/-! ## Collectors -/

namespace Collector

open Observer

theorem next_observer (c : Collector) (e : Event) :
    (Observer.observe c e).next = c.step (.observe e) := by
  change (c.react e).next = _
  simp only [react]
  cases (c.observe e).done <;> rfl

/-- A collector on the bus fails just where an event fails. -/
theorem failed_observer_iff (c : Collector) (e : Event) :
    (Observer.observe c e).failed = false ↔ ∃ done, (c.observe e).done = .ok done := by
  change (c.react e).failed = false ↔ _
  simp only [react]
  cases (c.observe e).done with
  | ok done => simp
  | error o => simp

theorem after_eq_run (c : Collector) (es : List Event) : after c es = c.run (es.map .observe) := by
  induction es using List.reverseRecOn with
  | nil => rfl
  | append_singleton es e ih =>
    rw [after_concat, ih, next_observer, List.map_append, List.map_singleton, run_concat]

variable {capacity : Nat} {hc : 0 < capacity}

/-- An event that does not fail keeps the sums of its own request within their bounds, and leaves
those of the others alone. -/
theorem inBounds_of_done {before : List Step} {e : Event} {done : Bool} (h : InBounds before)
    (ok : (((fresh capacity hc).run before).observe e).done = .ok done) :
    InBounds (before ++ [.observe e]) := by
  rw [done_observe, draft_run, segment_eq_sinceClosed h.endsCounted] at ok
  exact inBounds_concat.2 ⟨h, (h.fits_sinceClosed e.requestId).concat ok⟩

/-- A collector that has seen nothing withstands the events whose sums stay in bounds, and no
others. -/
theorem withstands_fresh_iff (es : List Event) :
    Withstands (fresh capacity hc) es ↔ InBounds (es.map .observe) := by
  induction es using List.reverseRecOn with
  | nil => simp [Withstands, InBounds]
  | append_singleton es e ih =>
    rw [withstands_concat, ih, failed_observer_iff, after_eq_run, List.map_append,
      List.map_singleton]
    constructor
    · rintro ⟨h, done, ok⟩
      exact inBounds_of_done h ok
    · intro h
      exact ⟨(inBounds_concat.1 h).1, _, done_observe_run h⟩

end Collector

end RequestMeter
