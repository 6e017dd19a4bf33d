import RequestMeter.Proofs.Collector.Demultiplexing
import RequestMeter.Proofs.Tally.Records

/-! # Conservation of counts

The tally of a collector is at every moment the tally of the records completed so far, and the records
that are no longer cached are the evicted ones.  Steps that fail change neither, and so the total falls
behind the ends only where an end fails.
-/
namespace RequestMeter.Collector

def Step.isEnd : Step → Bool
  | .observe e => e.stage = .ended
  | .discard => false

/-! ## The books -/

/-- What the tally, the flag and the log are after some records have been retired. -/
structure Books (capacity : Nat) (rs : List Record) (c : Collector) (log : List Notice) : Prop where
  tally : c.tally = { Tally.ofRecords rs with evicted := rs.length - capacity }
  warnedFull : c.warnedFull = decide (capacity < rs.length)
  log : log = if capacity < rs.length then [.cacheFull capacity] else []

/-- The books do not depend on what is in flight. -/
theorem Books.withInFlight {capacity : Nat} {rs : List Record} {c : Collector} {log : List Notice}
    (h : Books capacity rs c log) (t : Table String Draft) :
    Books capacity rs { c with inFlight := t } log := ⟨h.tally, h.warnedFull, h.log⟩

/-- One more retired record keeps the books.  The cache is full, and displaces a record, from the
record after `capacity` records on. -/
theorem Books.retire {capacity : Nat} {rs : List Record} {c : Collector} {log : List Notice}
    (h : Books capacity rs c log) (r : Record) (hc : c.cache.capacity = capacity)
    (hs : c.cache.size = min capacity rs.length) :
    Books capacity (rs ++ [r]) (c.retire r).1 (log ++ (c.retire r).2) := by
  obtain ⟨tally, warnedFull, rfl⟩ := h
  have hlen : (rs ++ [r]).length = rs.length + 1 := by simp
  by_cases hlt : rs.length < capacity
  · have hz : rs.length - capacity = 0 := by omega
    have hz' : rs.length + 1 - capacity = 0 := by omega
    have hn : ¬ capacity < rs.length := by omega
    have hn' : ¬ capacity < rs.length + 1 := by omega
    rw [c.retire_of_lt r (by omega)]
    constructor
    · rw [hlen, hz', Tally.ofRecords_concat]
      simp only [tally, hz]
      rfl
    · simpa [hn, hn'] using warnedFull
    · rw [hlen, if_neg hn, if_neg hn', List.append_nil]
  · have hz : rs.length + 1 - capacity = rs.length - capacity + 1 := by omega
    have hn : capacity < rs.length + 1 := by omega
    rw [c.retire_of_full r (by omega)]
    constructor
    · rw [hlen, hz, Tally.ofRecords_concat]
      simp only [tally]
      rfl
    · simp [hn]
    · rw [hlen, if_pos hn, warnedFull, hc]
      by_cases hw : capacity < rs.length <;> simp [hw]

variable {capacity : Nat} {hc : 0 < capacity}

theorem cached_run (steps : List Step) :
    ((fresh capacity hc).run steps).cached = min capacity (completed steps).length := by
  rw [cached, ← Ring.length_toList, toList_cache_run, List.rtake, List.length_drop]
  omega

theorem books_run (steps : List Step) :
    Books capacity (completed steps) ((fresh capacity hc).run steps)
      ((fresh capacity hc).runNotices steps) := by
  induction steps using List.reverseRecOn with
  | nil => exact ⟨by simp [fresh, Tally.ofRecords], by simp [fresh], by simp [runNotices]⟩
  | append_singleton before s ih =>
    have hd : ((fresh capacity hc).run before).retired? s = completion? before s :=
      retired?_run before s
    rw [run_concat, runNotices_concat, completed_concat]
    cases hr : completion? before s with
    | none =>
      obtain ⟨⟨t, ht⟩, hn⟩ := step_of_retired?_eq_none (hd.trans hr)
      rw [ht, hn, Option.toList_none, List.append_nil, List.append_nil]
      exact ih.withInFlight t
    | some r =>
      obtain ⟨t, ht⟩ := step_of_retired?_eq_some (hd.trans hr)
      rw [show step _ s = _ from congrArg Prod.fst ht,
        show stepNotices _ s = _ from congrArg Prod.snd ht, Option.toList_some]
      exact (ih.withInFlight t).retire r (capacity_cache_run before) (cached_run before)

/-! ## Completed records -/

theorem transport_of_completion? {before : List Step} {s : Step} {r : Record}
    (h : completion? before s = some r) : r.transport.isSome := by
  cases s with
  | discard => cases h
  | observe e =>
    rw [completion?, Option.ite_none_right_eq_some, Option.some.injEq, Draft.applyAll_append,
      Draft.applyAll_cons, Draft.applyAll_nil] at h
    obtain ⟨completes, rfl⟩ := h
    simp [Draft.apply, (Draft.completes_iff.mp completes).1]

theorem transport_of_mem_completed {steps : List Step} {r : Record} (h : r ∈ completed steps) :
    r.transport.isSome := by
  induction steps using List.reverseRecOn with
  | nil => cases h
  | append_singleton before s ih =>
    rw [completed_concat, List.mem_append, Option.mem_toList] at h
    exact h.elim ih transport_of_completion?

/-- Only an end completes a record. -/
theorem isEnd_of_completion? {before : List Step} {s : Step} {r : Record}
    (h : completion? before s = some r) : s.isEnd = true := by
  cases s with
  | discard => cases h
  | observe e =>
    rw [completion?, Option.ite_none_right_eq_some] at h
    exact decide_eq_true (Draft.completes_iff.mp h.1).1

theorem length_completed_le (steps : List Step) :
    (completed steps).length ≤ steps.countP Step.isEnd := by
  induction steps using List.reverseRecOn with
  | nil => exact Nat.le_refl _
  | append_singleton before s ih =>
    rw [completed_concat, List.length_append, List.countP_append]
    refine Nat.add_le_add ih ?_
    cases hr : completion? before s with
    | none => exact Nat.zero_le _
    | some r => simp [isEnd_of_completion? hr]

/-- Where every end is counted, every end completes a record. -/
theorem length_completed {steps : List Step} (h : EndsCounted steps) :
    (completed steps).length = steps.countP Step.isEnd := by
  induction steps using List.reverseRecOn with
  | nil => rfl
  | append_singleton before s ih =>
    have counted := h.of_prefix (List.prefix_append before [s])
    rw [completed_concat, List.length_append, ih counted, List.countP_append, List.countP_singleton]
    cases s with
    | discard => rfl
    | observe e =>
      by_cases he : e.stage = .ended
      · have completes := completes_sinceClosed h he
        rw [← segment_eq_sinceClosed counted] at completes
        simp [completion?, Step.isEnd, completes, he]
      · simp [completion?, Step.isEnd, Draft.completes, he]

theorem length_transports (steps : List Step) :
    ((completed steps).filterMap (·.transport)).length = (completed steps).length := by
  rw [List.length_filterMap_eq_countP, List.countP_eq_length]
  exact fun r hr => transport_of_mem_completed hr

/-! ## The counts of a run -/

theorem get?_byStatus_ofRecords (rs : List Record) (k : String) (s : UInt16) :
    ((Tally.ofRecords rs).byEndpoint.get? k).bind (·.byStatus.get? s) =
      Table.shown? (rs.countP fun r => r.bucket = k ∧ r.countedStatus = s) :=
  Tally.get?_part_ofRecords EndpointTally.byStatus_ofRecords rs k s

/-- The books of every run, failed steps included, on a cache of any capacity.  The total is the
number of completed records, which is the number of ends if every end can be counted; an endpoint
counts its completed records under their statuses; every class is the sum of its statuses; every
partition adds up to the total; what is not cached is evicted; and the first eviction is logged,
once. -/
theorem run_conserves_counts (capacity : Nat) (hc : 0 < capacity) (steps : List Step) :
    let c := (fresh capacity hc).run steps
    c.tally.total = (completed steps).length ∧ c.tally.total ≤ steps.countP Step.isEnd ∧
    (EndsCounted steps → c.tally.total = steps.countP Step.isEnd) ∧
    (∀ k s, (c.tally.byEndpoint.get? k).bind (·.byStatus.get? s) =
      Table.shown? ((completed steps).countP fun r => r.bucket = k ∧ r.countedStatus = s)) ∧
    (∀ k e, c.tally.byEndpoint.get? k = some e →
      (∀ l, e.byClass.get? l =
        Table.shown? (e.byStatus.sum fun s n => if StatusClass.ofStatus s = l then n else 0)) ∧
      e.total = (e.byStatus.sum fun _ n => n) ∧ e.total = (e.byClass.sum fun _ n => n)) ∧
    (c.tally.byEndpoint.sum fun _ e => e.total) = c.tally.total ∧
    (c.tally.byTransport.sum fun _ n => n) = c.tally.total ∧
    (∀ r ∈ completed steps, r.transport.isSome) ∧
    c.tally.evicted = c.tally.total - capacity ∧
    c.cached = c.tally.total - c.tally.evicted ∧ c.cached ≤ capacity ∧
    (fresh capacity hc).runNotices steps =
      if 0 < c.tally.evicted then [.cacheFull capacity] else [] := by
  intro c
  have books : Books capacity (completed steps) c _ := books_run steps
  have cached : c.cached = min capacity (completed steps).length := cached_run steps
  have hlog := books.log
  simp only [books.tally, Tally.total_ofRecords, cached, Tally.byTransport_ofRecords,
    Table.sum_counts_eq_length, length_transports, Tally.sum_byEndpoint_ofRecords]
  refine ⟨trivial, length_completed_le steps, length_completed, get?_byStatus_ofRecords _, ?_,
    trivial, trivial, fun r => transport_of_mem_completed, trivial, by omega, by omega, ?_⟩
  · intro k e he
    rw [Tally.get?_byEndpoint_ofRecords] at he
    split at he
    · cases he
    · obtain rfl := Option.some.inj he
      refine ⟨EndpointTally.get?_byClass_ofRecords _, ?_, ?_⟩
      · rw [EndpointTally.total_ofRecords, EndpointTally.byStatus_ofRecords,
          Table.sum_counts_eq_length, List.length_map]
      · rw [EndpointTally.total_ofRecords, EndpointTally.byClass_ofRecords,
          Table.sum_counts_eq_length, List.length_map]
  · rw [hlog]
    exact if_congr (by omega) rfl rfl

/-- A request whose second payload does not fit, its end, and the end of a request that never sent
anything else. -/
def overflowing : List Step :=
  let event (stage : Stage) (id : String) (payload : Payload) (status : Option UInt16) : Step :=
    .observe { stage, transport := .https, requestId := id, timestamp := .epoch, payload, status }
  [event .inPayload "a" (.bytes 0xFFFFFFFFFFFFFFFF) none, event .inPayload "a" (.bytes 1) none,
    event .ended "a" .none (some 503), event .ended "b" .none none]

theorem run_conserves_counts_overflowing :
    0 < 1 ∧ EndsCounted overflowing ∧
    let c := (fresh 1 Nat.one_pos).run overflowing
    c.tally.total = 2 ∧
    (c.tally.byEndpoint.get? "unknown").bind (·.byStatus.get? 0) = some 1 ∧
    (c.tally.byEndpoint.get? "unknown").bind (·.byStatus.get? 503) = some 1 ∧
    c.tally.evicted = 1 ∧ (fresh 1 Nat.one_pos).runNotices overflowing = [.cacheFull 1] := by
  obtain ⟨-, -, total, byStatus, -, -, -, -, evicted, -, -, log⟩ :=
    run_conserves_counts 1 Nat.one_pos overflowing
  have counted : EndsCounted overflowing := endsCounted_of_length_le (by decide)
  have ends : overflowing.countP Step.isEnd = 2 := by decide
  have total := (total counted).trans ends
  rw [total] at evicted
  rw [evicted] at log
  exact ⟨Nat.one_pos, counted, total, (byStatus _ _).trans (by decide), (byStatus _ _).trans (by decide),
    evicted, log⟩

/-- An end that comes too late to be counted is an end, but neither completes a record nor counts. -/
theorem run_not_conserved_countless :
    let steps := countless ++ [.observe (announced .ended)]
    steps.countP Step.isEnd = 1 ∧ ((fresh 1 Nat.one_pos).run steps).tally.total = 0 := by
  have begins : countless.countP Step.isEnd = 0 :=
    List.countP_eq_zero.mpr fun s hs => by
      rw [(List.mem_replicate.mp hs).2]
      decide
  refine ⟨?_, ?_⟩
  · rw [List.countP_append, begins]
    decide
  · rw [(books_run _).tally, completed_countless]
    decide

end RequestMeter.Collector
