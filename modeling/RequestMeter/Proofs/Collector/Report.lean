import RequestMeter.Collector.Snapshot
import RequestMeter.Proofs.Collector.Conservation
import RequestMeter.Proofs.Report.Lookup
import RequestMeter.Proofs.Statistics.Snapshot

/-! # Consistent reports

The cache, the tally and the requests in flight are kept apart, but a report is made of one state.  So
its totals agree with its statistics: what was completed is what is cached and what was evicted,
altogether and for every endpoint.
-/
namespace RequestMeter.Collector

/-! ## Reports that are taken -/

theorem stats_ne_overflow {c : Collector} (h : ∀ o, c.report ≠ .error (.overflow o)) (o : Overflow) :
    Snapshot.ofRecords c.cache.toList ≠ .error (.overflow o) := by
  intro hs
  apply h o
  rw [report, stats, hs]
  rfl

theorem report_eq_ok {c : Collector} {s : Snapshot} {log : List Notice}
    (h : Snapshot.ofRecords c.cache.toList = .ok (s, log)) :
    c.report = .ok ((Report.build s c.tally c.inFlight.size).1,
      log ++ (Report.build s c.tally c.inFlight.size).2) := by
  rw [report, stats, h]
  rfl

/-! ## The aggregate in a report -/

theorem get?_build_aggregate {s : Snapshot} {all : EndpointStats} {m : String} {x : Binary64}
    (t : Tally) (inFlight : Nat) (hs : s.get? allKey = some all) (hm : Report.Metric all m x) :
    (Report.build s t inFlight).1.get? (Slot.key ⟨allKey, m⟩) = some x := by
  apply Report.get?_build_metric t inFlight hs hm
  intro _
  constructor
  · decide
  · intro u
    cases u <;> decide

/-! ## Records past the cache -/

variable {capacity : Nat} {hc : 0 < capacity}

/-- The completed records are the evicted ones, as many as the tally says, and then the cached ones.
-/
theorem completed_eq_evicted_append (steps : List Step) :
    let c := (fresh capacity hc).run steps
    ∃ evicted, completed steps = evicted ++ c.cache.toList ∧ evicted.length = c.tally.evicted := by
  intro c
  refine ⟨(completed steps).rdrop capacity, ?_, ?_⟩
  · rw [toList_cache_run, List.rdrop, List.rtake, List.take_append_drop]
  · rw [(books_run steps).tally, List.rdrop, List.length_take]
    exact Nat.min_eq_left (Nat.sub_le _ _)

theorem exists_byEndpoint_ofRecords {rs : List Record} {k : String} {n : Nat}
    (h : n = rs.countP (·.bucket = k)) (hn : n ≠ 0) :
    ∃ e, (Tally.ofRecords rs).byEndpoint.get? k = some e ∧ e.total = n := by
  have hl : (rs.filter (·.bucket = k)).length = n := by rw [h, List.countP_eq_length_filter]
  refine ⟨EndpointTally.ofRecords (rs.filter (·.bucket = k)), ?_, ?_⟩
  · rw [Tally.get?_byEndpoint_ofRecords, if_neg]
    intro he
    rw [he] at hl
    exact hn hl.symm
  · rw [EndpointTally.total_ofRecords, hl]

/-! ## Consistency -/

/-- After any run, whatever the endpoints are called, a report that does not overflow is taken of one
snapshot.  In it the completed transactions are those of the aggregate, complete and partial, and the
evicted ones; the open ones are the ids with a segment; and every endpoint of the snapshot is counted
in the tally with its cached and its evicted records. -/
theorem report_run_consistent (capacity : Nat) (hc : 0 < capacity) (steps : List Step)
    (h : ∀ o, ((fresh capacity hc).run steps).report ≠ .error (.overflow o)) :
    let c := (fresh capacity hc).run steps
    ∃ s log r more all evicted,
      c.stats = .ok (s, log) ∧ c.report = .ok (r, more) ∧ s.get? allKey = some all ∧
      completed steps = evicted ++ c.cache.toList ∧ evicted.length = c.tally.evicted ∧
      r.get? "Total/count" = some (.ofNat c.tally.total) ∧
      r.get? "all/count" = some (.ofNat all.count) ∧
      r.get? "all/partial" = some (.ofNat all.partials) ∧
      r.get? "Total/evicted" = some (.ofNat c.tally.evicted) ∧
      c.tally.total = all.count + all.partials + c.tally.evicted ∧
      r.get? "Total/in_flight" = some (.ofNat c.inFlight.size) ∧
      {id | segment id steps ≠ []}.encard = c.inFlight.size ∧
      ∀ k st, k ≠ allKey → s.get? k = some st →
        ∃ e, c.tally.byEndpoint.get? k = some e ∧
          e.total = st.count + st.partials + evicted.countP (·.bucket = k) := by
  intro c
  have books : Books capacity (completed steps) c _ := books_run steps
  obtain ⟨s, log, all, hs, hall, counted, endpoint⟩ :=
    Snapshot.exists_ofRecords (stats_ne_overflow (c := c) h)
  obtain ⟨evicted, split, length⟩ : ∃ evicted, completed steps = evicted ++ c.cache.toList ∧
      evicted.length = c.tally.evicted := completed_eq_evicted_append steps
  obtain ⟨count, evictedCount, inFlight⟩ := Report.get?_build_total s c.tally c.inFlight.size
  have allCount : (Slot.mk allKey "count").key = "all/count" := by decide
  have allPartial : (Slot.mk allKey "partial").key = "all/partial" := by decide
  refine ⟨s, log, _, _, all, evicted, hs, report_eq_ok hs, hall, split, length, count, ?_, ?_,
    evictedCount, ?_, inFlight, encard_open steps, ?_⟩
  · rw [← allCount]
    exact get?_build_aggregate _ _ hall .count
  · rw [← allPartial]
    exact get?_build_aggregate _ _ hall .partials
  · have total : c.tally.total = (completed steps).length := by
      rw [books.tally]
      exact Tally.total_ofRecords _
    have sizes := congrArg List.length split
    rw [List.length_append] at sizes
    omega
  · intro k st hk hst
    have hcache := endpoint k hk
    rw [hst, Option.map_some] at hcache
    unfold Table.shown? at hcache
    split at hcache
    · cases hcache
    · have cached := Option.some.inj hcache
      rw [books.tally]
      apply exists_byEndpoint_ofRecords
      · rw [split, List.countP_append, cached, Nat.add_comm]
      · omega

/-- Endpoints named like the totals, like a transport, like the aggregate and not at all, and one
request that does not end. -/
def shadowing : List Step :=
  let event (stage : Stage) (id : String) (endpoint : String) : Step :=
    .observe { stage, transport := .http, requestId := id, endpoint, timestamp := .epoch }
  [event .headerReceived "a" "Total", event .ended "a" "", event .headerReceived "b" "http",
    event .begun "b" "", event .ended "b" "", event .headerReceived "c" "all",
    event .ended "c" "", event .headerReceived "d" "", event .ended "d" "", event .begun "e" ""]

theorem report_run_consistent_shadowing :
    let c := (fresh 3 (by decide)).run shadowing
    0 < 3 ∧ (∀ o, c.report ≠ .error (.overflow o)) ∧
    ∃ r log, c.report = .ok (r, log) ∧ r.get? "Total/count" = some (.ofNat 4) ∧
      r.get? "Total/evicted" = some (.ofNat 1) ∧ r.get? "Total/in_flight" = some (.ofNat 1) := by
  intro c
  have taken : (Snapshot.ofRecords c.cache.toList).isOk = true := by decide +kernel
  have fits : ∀ o, c.report ≠ .error (.overflow o) := by
    intro o ho
    cases hs : Snapshot.ofRecords c.cache.toList with
    | error e =>
      rw [hs] at taken
      cases taken
    | ok p =>
      rw [report_eq_ok hs] at ho
      cases ho
  obtain ⟨s, log, r, more, all, evicted, -, hr, -, -, -, total, -, -, evictedCount, -, inFlight, -⟩ :=
    report_run_consistent 3 (by decide) shadowing fits
  have hc : c.tally.total = 4 := by decide
  have he : c.tally.evicted = 1 := by decide
  have hi : c.inFlight.size = 1 := by decide
  exact ⟨by decide, fits, r, more, hr, hc ▸ total, he ▸ evictedCount, hi ▸ inFlight⟩

end RequestMeter.Collector
