import RequestMeter.Proofs.Collector.Demultiplexing
import RequestMeter.Proofs.Record.Times

/-! # Durations of completed records

Requests interleave, so the timestamps of a run as a whole are in no order.  It is enough that the events
of each transaction are: whatever the run, and wherever begin stands among them, the durations of every
record that is completed are exact and bound each other.
-/
namespace RequestMeter.Collector

/-! ## Transactions -/

/-- The events of the request that a step ends after some other steps, its end included. -/
def ended? (before : List Step) : Step → Option (List Event)
  | .observe e =>
    if (Draft.applyAll {} (segment e.requestId before)).completes e then
      some (segment e.requestId before ++ [e])
    else none
  | .discard => none

/-- The events of each request that some steps end after others, in the order of the ends. -/
def transactionsFrom (before : List Step) : List Step → List (List Event)
  | [] => []
  | s :: rest => (ended? before s).toList ++ transactionsFrom (before ++ [s]) rest

def transactions (steps : List Step) : List (List Event) := transactionsFrom [] steps

theorem eq_concat_of_ended? {before : List Step} {s : Step} {es : List Event}
    (h : ended? before s = some es) :
    ∃ init e, e.stage = .ended ∧ es = init ++ [e] := by
  cases s with
  | discard => cases h
  | observe e =>
    rw [ended?, Option.ite_none_right_eq_some] at h
    exact ⟨_, e, (Draft.completes_iff.mp h.1).1, (Option.some.inj h.2).symm⟩

theorem eq_concat_of_mem_transactionsFrom {before steps : List Step} {es : List Event}
    (h : es ∈ transactionsFrom before steps) :
    ∃ init e, e.stage = .ended ∧ es = init ++ [e] := by
  induction steps generalizing before with
  | nil => cases h
  | cons s rest ih =>
    rw [transactionsFrom, List.mem_append, Option.mem_toList] at h
    exact h.elim eq_concat_of_ended? ih

/-- What a run completes are the folds of its transactions. -/
theorem completedFrom_eq_map (before steps : List Step) :
    completedFrom before steps =
      (transactionsFrom before steps).map fun es => (Draft.applyAll {} es).record := by
  induction steps generalizing before with
  | nil => rfl
  | cons s rest ih =>
    have head : completion? before s =
        (ended? before s).map fun es => (Draft.applyAll {} es).record := by
      cases s with
      | discard => rfl
      | observe e =>
        rw [completion?, ended?]
        split <;> rfl
    rw [completedFrom, transactionsFrom, List.map_append, ih, head, Option.toList_map]

/-! ## Runs -/

/-- Whatever the steps of a run, on a cache of any capacity: if the events of each transaction that
ends carry timestamps that do not decrease and are not in leap seconds, every record that is
completed with a begin also has an end, its latency is the exact difference, the time to the first
byte and both windows are no longer than that, and there is an outbound window, no shorter than the
time to the first byte, whenever there is such a time. -/
theorem durations_coherent (capacity : Nat) (hc : 0 < capacity) (steps : List Step)
    (ordered : ∀ es ∈ transactions steps, Chronological es) :
    ((fresh capacity hc).run steps).cache.toList = (completed steps).rtake capacity ∧
    ∀ r ∈ completed steps, ∀ begin, r.begun = some begin →
      ∃ finish ms, r.ended = some finish ∧ r.latency = some ms ∧ begin ≤ finish ∧
        (ms : Int) = (finish.instant - begin.instant) / 1000000 ∧
        (∀ first, r.timeToFirstByte = some first → first ≤ ms) ∧
        (∀ secs, r.inWindow = some secs → secs ≤ ms / 1000) ∧
        (∀ secs, r.outWindow = some secs → secs ≤ ms / 1000) ∧
        ∀ first, r.timeToFirstByte = some first →
          ∃ secs, r.outWindow = some secs ∧ first / 1000 ≤ secs := by
  refine ⟨toList_cache_run steps, fun r hr begin hb => ?_⟩
  rw [completed, completedFrom_eq_map] at hr
  obtain ⟨es, hes, rfl⟩ := List.mem_map.mp hr
  obtain ⟨init, e, he, rfl⟩ := eq_concat_of_mem_transactionsFrom hes
  obtain ⟨ms, spans⟩ := Draft.spans_applyAll he (ordered _ hes) hb
  exact ⟨_, ms, spans.ended, spans.latency, spans.forward, spans.exact, spans.firstByte,
    spans.inWindow, spans.outWindow, spans.windowed⟩

/-- One request reports its begin after a payload and once more, and another one, of earlier times,
comes in between. -/
def entangledTimes : List Step :=
  let event (stage : Stage) (id : String) (micros : Int) : Step :=
    .observe { stage, transport := .http, requestId := id
               timestamp := (Timestamp.ofMicros? micros).getD .epoch }
  [event .inPayload "a" 5000000, event .begun "a" 6000000, event .begun "b" 1000,
    event .begun "a" 6500000, event .outPayload "a" 8500000, event .ended "b" 3999,
    event .outTrailer "a" 11200000, event .ended "a" 11900000]

/-- The last begin counts.  The inbound payload lies before it, so that the inbound window is empty.
-/
theorem durations_coherent_entangled :
    0 < 1 ∧ (∀ es ∈ transactions entangledTimes, Chronological es) ∧
    ∃ a ∈ completed entangledTimes, a.begun = Timestamp.ofMicros? 6500000 ∧
      a.ended = Timestamp.ofMicros? 11900000 ∧ a.latency = some 5400 ∧
      a.timeToFirstByte = some 2000 ∧ a.inWindow = some 0 ∧
      ∃ ms secs, a.latency = some ms ∧ a.outWindow = some secs ∧ 2000 ≤ ms ∧ 2000 / 1000 ≤ secs ∧
        secs ≤ ms / 1000 := by
  have ordered : ∀ es ∈ transactions entangledTimes, Chronological es := by decide
  obtain ⟨-, durations⟩ := durations_coherent 1 Nat.one_pos entangledTimes ordered
  let a : Record := {
    transport := some .http, begun := Timestamp.ofMicros? 6500000
    ended := Timestamp.ofMicros? 11900000, firstByte := Timestamp.ofMicros? 8500000
    inCapture := Timestamp.ofMicros? 5000000, outCapture := Timestamp.ofMicros? 11200000 }
  have mem : a ∈ completed entangledTimes := by decide
  obtain ⟨begin, begun⟩ : ∃ begin, Timestamp.ofMicros? 6500000 = some begin := ⟨_, rfl⟩
  have first : a.timeToFirstByte = some 2000 := by decide
  obtain ⟨-, ms, -, latency, -, -, firstByte, -, outWindow, windowed⟩ := durations a mem begin begun
  obtain ⟨secs, window, long⟩ := windowed 2000 first
  exact ⟨Nat.one_pos, ordered, a, mem, rfl, rfl, by decide, first, by decide, ms, secs, latency, window,
    firstByte 2000 first, long, outWindow secs window⟩

end RequestMeter.Collector
