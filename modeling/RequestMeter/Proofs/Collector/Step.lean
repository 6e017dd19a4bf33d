import RequestMeter.Collector.Basic
import RequestMeter.Proofs.Record.Bytes
import RequestMeter.Proofs.Ring
import RequestMeter.Proofs.Table

/-! # Steps of a collector

A step observes an event or discards what is in flight.  For one id a step either closes the request,
or adds an event to its draft, or leaves the draft alone.  Only an end that is counted reaches the cache
and the tally; one that cannot be counted stays in flight with its request.
-/
namespace RequestMeter.Collector

inductive Step where
  | observe (e : Event)
  /-- All requests that have not ended are forgotten. -/
  | discard

def fresh (capacity : Nat) (h : 0 < capacity) : Collector := { cache := .ofCapacity capacity h }

/-- Such a collector is what `new` makes when the host can set its cache aside. -/
theorem new_eq_fresh {capacity : Nat} (h : 0 < capacity)
    (fits : Record.slotBytes * capacity ≤ HostLimit.storage.bound) :
    new capacity = .ok (fresh capacity h) := by
  rw [new, Ring.allocate_of_le h fits]
  rfl

def step (c : Collector) : Step → Collector
  | .observe e => (c.observe e).next
  | .discard => c.discard.1

def stepNotices (c : Collector) : Step → List Notice
  | .observe e => (c.observe e).notices
  | .discard => []

/-- Whether a step is an end of the request with this id, or a discard. -/
def Step.closes (id : String) : Step → Bool
  | .observe e => e.requestId = id ∧ e.stage = .ended
  | .discard => true

def Step.event? (id : String) : Step → Option Event
  | .observe e => if e.requestId = id ∧ e.stage ≠ .unknown then some e else none
  | .discard => none

/-- What a step makes of the draft that is in flight under an id, or of there being none. -/
def Step.advance (id : String) (s : Step) (d : Option Draft) : Option Draft :=
  match s, s.event? id with
  | .discard, _ => none
  | .observe _, none => d
  | .observe _, some e => if (d.getD {}).completes e then none else some ((d.getD {}).apply e).1

/-! ## Observing one event -/

/-- What is known of a request before its next event. -/
def draft (c : Collector) (id : String) : Draft := (c.inFlight.get? id).getD {}

theorem observe_of_unknown (c : Collector) {e : Event} (h : e.stage = .unknown) :
    c.observe e = { next := c, done := .ok false } := by
  rw [observe, if_pos h]

/-- An event that ends the request retires its record. -/
theorem observe_of_completes (c : Collector) {e : Event}
    (h : (c.draft e.requestId).completes e = true) :
    c.observe e =
      let retired := { c with inFlight := c.inFlight.erase e.requestId }.retire
        ((c.draft e.requestId).apply e).1.record
      { next := retired.1, done := .ok true, notices := retired.2 } := by
  have hd := Draft.apply_eq_ok_true_iff.mpr h
  rw [observe, if_neg (by simp [(Draft.completes_iff.mp h).1])]
  rw [← draft]
  split
  · rename_i draft ha
    rw [ha]
  · rename_i draft done hn ha
    rw [ha] at hd
    exact absurd hd hn

/-- Any other known event stays in flight, also when it fails. -/
theorem observe_of_open (c : Collector) {e : Event} (hu : e.stage ≠ .unknown)
    (he : (c.draft e.requestId).completes e = false) :
    c.observe e =
      { next := { c with
          inFlight := c.inFlight.insert e.requestId ((c.draft e.requestId).apply e).1 }
        done := ((c.draft e.requestId).apply e).2 } := by
  rw [observe, if_neg hu, ← draft]
  split
  · rename_i draft ha
    rw [Draft.apply_eq_ok_true_iff.mp (by rw [ha])] at he
    cases he
  · rename_i draft done hn ha
    rw [ha]

/-- Observing an event comes out as adding it to the draft of its request. -/
theorem done_observe (c : Collector) (e : Event) :
    (c.observe e).done = ((c.draft e.requestId).apply e).2 := by
  by_cases hu : e.stage = .unknown
  · rw [c.observe_of_unknown hu]
    simp [Draft.apply, hu]
  · cases he : (c.draft e.requestId).completes e with
    | true => rw [c.observe_of_completes he, Draft.apply_eq_ok_true_iff.mpr he]
    | false => rw [c.observe_of_open hu he]

/-! ## Retiring one record -/

theorem retire_of_lt (c : Collector) (r : Record) (h : c.cache.size < c.cache.capacity) :
    c.retire r =
      ({ c with
          cache := (c.cache.store r).1
          tally := c.tally.add r.transport r.bucket r.status }, []) := by
  have hs := (c.cache.store_of_lt r h).2
  rw [retire]
  split
  · rename_i cache he
    rw [he]
  · rename_i cache old he
    rw [he] at hs
    cases hs

theorem retire_of_full (c : Collector) (r : Record) (h : c.cache.size = c.cache.capacity) :
    c.retire r =
      ({ c with
          cache := (c.cache.store r).1
          tally := (c.tally.add r.transport r.bucket r.status).addEviction
          warnedFull := true },
        if c.warnedFull then [] else [.cacheFull c.cache.capacity]) := by
  have hs := (c.cache.store_displaces_iff r).mpr h
  have hc := c.cache.capacity_store r
  rw [retire]
  split
  · rename_i cache he
    rw [he] at hs
    exact absurd rfl hs
  · rename_i cache old he
    rw [he] at hc ⊢
    rw [hc]

@[simp] theorem inFlight_retire (c : Collector) (r : Record) :
    (c.retire r).1.inFlight = c.inFlight := by
  unfold retire
  split <;> rfl

@[simp] theorem cache_retire (c : Collector) (r : Record) :
    (c.retire r).1.cache = (c.cache.store r).1 := by
  unfold retire
  split <;> (rename_i he; rw [he])

/-! ## What a step does -/

/-- What is in flight under one id depends on nothing but what was, and on the step. -/
theorem get?_inFlight_step (c : Collector) (s : Step) (id : String) :
    (c.step s).inFlight.get? id = s.advance id (c.inFlight.get? id) := by
  cases s with
  | discard => rfl
  | observe e =>
    simp only [step, Step.advance, Step.event?]
    by_cases hu : e.stage = .unknown
    · simp [c.observe_of_unknown hu, hu]
    · cases he : (c.draft e.requestId).completes e with
      | true =>
        rw [c.observe_of_completes he]
        rw [draft] at he
        by_cases hid : id = e.requestId
        · simp [Table.get?_erase, hid, hu, he]
        · simp [Table.get?_erase, hid, Ne.symm hid]
      | false =>
        rw [c.observe_of_open hu he]
        rw [draft] at he ⊢
        by_cases hid : id = e.requestId
        · simp [Table.get?_insert, hid, hu, he]
        · simp [Table.get?_insert, hid, Ne.symm hid]

def retired? (c : Collector) : Step → Option Record
  | .observe e =>
    if (c.draft e.requestId).completes e then some ((c.draft e.requestId).apply e).1.record else none
  | .discard => none

/-- A step that ends no request changes only what is in flight. -/
theorem step_of_retired?_eq_none {c : Collector} {s : Step} (h : c.retired? s = none) :
    (∃ t, c.step s = { c with inFlight := t }) ∧ c.stepNotices s = [] := by
  cases s with
  | discard => exact ⟨⟨.empty, rfl⟩, rfl⟩
  | observe e =>
    have he : (c.draft e.requestId).completes e = false := by
      simpa [retired?] using h
    by_cases hu : e.stage = .unknown
    · rw [step, stepNotices, c.observe_of_unknown hu]
      exact ⟨⟨c.inFlight, rfl⟩, rfl⟩
    · rw [step, stepNotices, c.observe_of_open hu he]
      exact ⟨⟨_, rfl⟩, rfl⟩

/-- A step that ends a request also retires its record. -/
theorem step_of_retired?_eq_some {c : Collector} {s : Step} {r : Record}
    (h : c.retired? s = some r) :
    ∃ t, (c.step s, c.stepNotices s) = { c with inFlight := t }.retire r := by
  cases s with
  | discard => cases h
  | observe e =>
    rw [retired?, Option.ite_none_right_eq_some, Option.some.injEq] at h
    obtain ⟨he, rfl⟩ := h
    rw [step, stepNotices, c.observe_of_completes he]
    exact ⟨_, rfl⟩

end RequestMeter.Collector
