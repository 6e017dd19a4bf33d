import RequestMeter.Proofs.Binary64
import RequestMeter.Proofs.Collector.Report
import RequestMeter.Proofs.Report.Contents

/-! # Counts of transports in reports

The count of a transport is put into a report before any endpoint is, but only once a transaction of
the transport was completed.  Until then its key is free, and an endpoint named like the transport shows
its own count there.
-/
namespace RequestMeter

namespace Report

def transportKey (u : Transport) : String := Slot.key ⟨u.label, "count"⟩

variable {s : Snapshot} {t : Tally} {inFlight : Nat} {u : Transport}

/-- The counters have a transport's count exactly when the tally has it. -/
theorem counter_transport_iff {n : Nat} :
    Counter t inFlight ⟨u.label, "count"⟩ n ↔ t.byTransport.get? u = some n := by
  refine ⟨fun h => ?_, .transport⟩
  generalize hslot : (⟨u.label, "count"⟩ : Slot) = slot at h
  have scope : u.label = slot.scope := congrArg Slot.scope hslot
  have metric : "count" = slot.metric := congrArg Slot.metric hslot
  cases h with
  | total => exact absurd scope (label_ne_totalScope u)
  | evicted | inFlight | requests => simp at metric
  | transport h =>
    rw [Transport.label_injective scope]
    exact h
  | status | statusClass => exact absurd metric (ne_status_append (by decide) _)

theorem named_count : Named "count" := .plain (by decide)

/-- The count of a transport is the counter's, and without a counter that of the endpoint with its
name. -/
theorem get?_build_transportKey (s : Snapshot) (t : Tally) (inFlight : Nat) (u : Transport) :
    (build s t inFlight).1.get? (transportKey u) =
      ((t.byTransport.get? u).map .ofNat).or ((s.get? u.label).map fun st => .ofNat st.count) := by
  ext x
  rw [transportKey, get?_build, Option.or_eq_some_iff, Option.or_eq_some_iff]
  have counter (y : Binary64) :
      firstValue? (Slot.key ⟨u.label, "count"⟩) (counterSlots t inFlight) = some y ↔
        (t.byTransport.get? u).map .ofNat = some y := by
    refine (firstValue?_counterSlots named_count).trans ?_
    rw [Option.map_eq_some_iff]
    simp only [counter_transport_iff, eq_comm]
  have free : firstValue? (Slot.key ⟨u.label, "count"⟩) (counterSlots t inFlight) = none ↔
      (t.byTransport.get? u).map Binary64.ofNat = none := by
    simp only [Option.eq_none_iff_forall_ne_some, ne_eq, counter]
  have metric : firstValue? (Slot.key ⟨u.label, "count"⟩) (statsSlots s) = some x ↔
      (s.get? u.label).map (fun st => Binary64.ofNat st.count) = some x := by
    rw [firstValue?_eq_some_iff (nodup_keys_statsSlots s), Option.map_eq_some_iff]
    constructor
    · rintro ⟨slot, hm, hk⟩
      obtain rfl := eq_of_key_eq (named_of_mem_statsSlots hm) named_count hk
      obtain ⟨v, hv, hx⟩ := mem_statsSlots.mp hm
      exact ⟨v, hv, Metric.count.functional hx⟩
    · rintro ⟨v, hv, rfl⟩
      exact ⟨_, mem_statsSlots.mpr ⟨v, hv, .count⟩, rfl⟩
  rw [counter, free, metric]

end Report

namespace Collector

variable {capacity : Nat} {hc : 0 < capacity}

theorem get?_byTransport_run (steps : List Step) (u : Transport) :
    ((fresh capacity hc).run steps).tally.byTransport.get? u =
      Table.shown? ((completed steps).countP (·.transport = some u)) := by
  have counted : ((completed steps).filterMap (·.transport)).count u =
      (completed steps).countP (·.transport = some u) := by
    rw [List.count, List.countP_filterMap]
    congr 1
    funext r
    cases r.transport <;> simp [Bool.beq_eq_decide_eq]
  rw [(books_run steps).tally]
  change (Tally.ofRecords _).byTransport.get? u = _
  rw [Tally.byTransport_ofRecords, Table.get?_counts, counted]

/-- After any run, whatever the endpoints are called, a report that does not overflow shows the
totals of the counters and of the requests in flight.  The count of a transport, if it is shown, is
the number of completed transactions of the transport exactly when there are any, or when the
endpoint with the transport's name has no latency to count: without a counter the report shows the
count of that endpoint. -/
theorem transportCount_iff_counted (capacity : Nat) (hc : 0 < capacity) (steps : List Step)
    (h : ∀ o, ((fresh capacity hc).run steps).report ≠ .error (.overflow o)) :
    let c := (fresh capacity hc).run steps
    ∃ s log r more, c.stats = .ok (s, log) ∧ c.report = .ok (r, more) ∧
      r.get? "Total/count" = some (.ofNat (completed steps).length) ∧
      r.get? "Total/evicted" = some (.ofNat ((completed steps).length - capacity)) ∧
      r.get? "Total/in_flight" = some (.ofNat c.inFlight.size) ∧
      ∀ u : Transport,
        let n := (completed steps).countP (·.transport = some u)
        (n ≠ 0 → r.get? (Report.transportKey u) = some (.ofNat n)) ∧
        (n = 0 → r.get? (Report.transportKey u) =
          (s.get? u.label).map fun st => .ofNat st.count) ∧
        ((∀ x, r.get? (Report.transportKey u) = some x → x = .ofNat n) ↔
          n ≠ 0 ∨ ∀ st, s.get? u.label = some st → st.count = 0) := by
  intro c
  have books : Books capacity (completed steps) c _ := books_run steps
  obtain ⟨s, log, all, hs, -⟩ := Snapshot.exists_ofRecords (stats_ne_overflow (c := c) h)
  obtain ⟨count, evicted, inFlight⟩ := Report.get?_build_total s c.tally c.inFlight.size
  rw [books.tally] at count evicted
  rw [Tally.total_ofRecords] at count
  refine ⟨s, log, _, _, hs, report_eq_ok hs, books.tally ▸ count, books.tally ▸ evicted, inFlight, ?_⟩
  intro u n
  have shown := Report.get?_build_transportKey s c.tally c.inFlight.size u
  rw [get?_byTransport_run steps u] at shown
  have counted (hn : n ≠ 0) :
      (Report.build s c.tally c.inFlight.size).1.get? (Report.transportKey u) = some (.ofNat n) := by
    rw [shown, Table.shown?, if_neg hn]
    rfl
  have uncounted (hn : n = 0) :
      (Report.build s c.tally c.inFlight.size).1.get? (Report.transportKey u) =
        (s.get? u.label).map fun st => .ofNat st.count := by
    rw [shown, Table.shown?, if_pos hn]
    rfl
  refine ⟨counted, uncounted, ?_⟩
  by_cases hn : n = 0
  · rw [uncounted hn, hn]
    constructor
    · intro hx
      refine .inr fun st hst => ?_
      by_contra hcount
      exact Binary64.ofNat_ne_zero hcount (hx _ (by rw [hst]; rfl))
    · rintro (hne | zero) x hx
      · exact absurd rfl hne
      · obtain ⟨st, hst, rfl⟩ := Option.map_eq_some_iff.mp hx
        rw [zero st hst]
  · rw [counted hn]
    simp [hn]

/-! ## An endpoint named like a transport -/

theorem report_ne_overflow {c : Collector}
    (taken : (Snapshot.ofRecords c.cache.toList).isOk = true) (o : Overflow) :
    c.report ≠ .error (.overflow o) := by
  intro ho
  cases hs : Snapshot.ofRecords c.cache.toList with
  | error e =>
    rw [hs] at taken
    cases taken
  | ok p =>
    rw [report_eq_ok hs] at ho
    cases ho

/-- One transaction over RPC, whose endpoint is called like another transport. -/
def misnamed : List Step :=
  let event (stage : Stage) : Step :=
    .observe {
      stage, transport := .rpc, requestId := "a", endpoint := "http", timestamp := .epoch }
  [event .headerReceived, event .begun, event .ended]

/-- The end of a transaction over HTTP. -/
def httpEnd (requestId : String) : Step :=
  .observe { stage := .ended, transport := .http, requestId, timestamp := .epoch }

/-- No transaction over HTTP was completed, and one is counted. -/
theorem transportCount_misnamed :
    let c := (fresh 4 (by decide)).run misnamed
    (completed misnamed).countP (·.transport = some .http) = 0 ∧
      ∃ r log, c.report = .ok (r, log) ∧ r.get? "http/count" = some (.ofNat 1) := by
  intro c
  refine ⟨by decide, ?_⟩
  have shown : c.report.toOption.map (·.1.get? "http/count") = some (some (.ofNat 1)) := by
    decide +kernel
  cases h : c.report with
  | error e =>
    rw [h] at shown
    cases shown
  | ok p =>
    rw [h] at shown
    exact ⟨p.1, p.2, rfl, Option.some.inj shown⟩

/-- The counter takes the place of the endpoint's count with the first transaction over HTTP. -/
theorem transportCount_iff_counted_overtaken :
    let steps := misnamed ++ [httpEnd "b", httpEnd "c"]
    let c := (fresh 4 (by decide)).run steps
    0 < 4 ∧ (∀ o, c.report ≠ .error (.overflow o)) ∧
      ∃ r log, c.report = .ok (r, log) ∧ r.get? (Report.transportKey .http) = some (.ofNat 2) := by
  intro steps c
  have fits : ∀ o, c.report ≠ .error (.overflow o) := report_ne_overflow (by decide +kernel)
  obtain ⟨s, log, r, more, -, report, -, -, -, transports⟩ :=
    transportCount_iff_counted 4 (by decide) steps fits
  have two : (completed steps).countP (·.transport = some .http) = 2 := by decide
  obtain ⟨counted, -, -⟩ := transports .http
  rw [two] at counted
  exact ⟨by decide, fits, r, more, report, counted (by decide)⟩

end Collector

end RequestMeter
