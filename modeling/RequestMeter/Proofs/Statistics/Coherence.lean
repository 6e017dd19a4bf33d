import RequestMeter.Proofs.Percentile.OrderStatistic

/-! # Coherent statistics

The values of an endpoint's statistics are gathered apart from each other: counts and sums one by one, the
extremes as they come, and the percentiles of the samples at the end.  They still describe one list of
records: the percentiles lie between the extremes, the sum between as many of the one and of the other,
and all of them are latencies of the records.
-/
namespace RequestMeter

/-! ## Extremes -/

theorem extreme_min_spec {xs : List Nat} (h : xs ≠ []) :
    extreme min xs ∈ xs ∧ ∀ x ∈ xs, extreme min xs ≤ x := by
  obtain ⟨low, hl⟩ := Option.ne_none_iff_exists'.mp (mt List.min?_eq_none_iff.mp h)
  rw [extreme_min, hl, Option.getD_some]
  exact List.min?_eq_some_iff.mp hl

theorem extreme_max_spec {xs : List Nat} (h : xs ≠ []) :
    extreme max xs ∈ xs ∧ ∀ x ∈ xs, x ≤ extreme max xs := by
  obtain ⟨high, hh⟩ := Option.ne_none_iff_exists'.mp (mt List.max?_eq_none_iff.mp h)
  rw [extreme_max, hh, Option.getD_some]
  exact List.max?_eq_some_iff.mp hh

namespace EndpointStats

/-! ## One endpoint -/

structure Measured (st : EndpointStats) (rs : List Record) : Prop where
  min_le : st.minMs ≤ st.percentiles.p50
  ascending : st.percentiles.p50 ≤ st.percentiles.p90 ∧
    st.percentiles.p90 ≤ st.percentiles.p95 ∧ st.percentiles.p95 ≤ st.percentiles.p99 ∧
    st.percentiles.p99 ≤ st.percentiles.p999 ∧ st.percentiles.p999 ≤ st.percentiles.p9999
  le_max : st.percentiles.p9999 ≤ st.maxMs
  /-- Extremes and percentiles are latencies of the records. -/
  latencies : ∀ ms ∈ [st.minMs, st.maxMs] ++ st.percentiles.labelled.map (·.2),
    ∃ r ∈ rs, r.latency = some ms
  sum : st.count * st.minMs ≤ st.sumMs ∧ st.sumMs ≤ st.count * st.maxMs
  top : st.count < 10000 → st.percentiles.p9999 = st.maxMs

/-- Statistics that can be those of some records, as far as their values bound each other. -/
structure Coherent (st : EndpointStats) (rs : List Record) : Prop where
  records : st.count + st.partials = rs.length
  errors : st.errors ≤ st.count + st.partials
  routes : st.prevRoutes.length ≤ st.count + st.partials
  measured : 0 < st.count → st.Measured rs
  unmeasured : st.count = 0 →
    st.sumMs = 0 ∧ st.minMs = 0 ∧ st.maxMs = 0 ∧ st.percentiles = {}

variable (rs : List Record)

theorem length_prevRoutes_le : (ofRecords rs).prevRoutes.length ≤ rs.length := by
  have named : (ofRecords rs).prevRoutes ⊆ Record.routes rs := fun _ => Table.mem_keys_tabulate.mp
  have distinct : (ofRecords rs).prevRoutes.Nodup := Table.nodup_keys _
  have few := (distinct.subperm named).length_le
  have routes : (Record.routes rs).length ≤ (rs.map (·.prevRoute)).length := List.length_filter_le _ _
  rw [List.length_map] at routes
  exact Nat.le_trans few routes

theorem percentiles_ofRecords (some : Measure.latency.values rs ≠ []) :
    (ofRecords rs).percentiles.Describes (Measure.latency.values rs) := by
  obtain ⟨l, hl⟩ := Ladder.exists_ofSamples some
  have ladder : (ofRecords rs).percentiles = l := by
    rw [ofRecords, hl]
    rfl
  rw [ladder]
  exact Ladder.describes_of_ofSamples hl

theorem measured_ofRecords (h : 0 < (ofRecords rs).count) : (ofRecords rs).Measured rs := by
  have some : Measure.latency.values rs ≠ [] := List.ne_nil_of_length_pos h
  have ladder := percentiles_ofRecords rs some
  obtain ⟨lowMem, low⟩ := extreme_min_spec some
  obtain ⟨highMem, high⟩ := extreme_max_spec some
  have samples : ∀ ms ∈ [(ofRecords rs).minMs, (ofRecords rs).maxMs] ++
      (ofRecords rs).percentiles.labelled.map (·.2), ms ∈ Measure.latency.values rs := by
    simp only [Ladder.labelled, List.map_cons, List.map_nil, List.cons_append, List.nil_append,
      List.forall_mem_cons]
    exact ⟨lowMem, highMem, ladder.p50.mem, ladder.p90.mem, ladder.p95.mem, ladder.p99.mem,
      ladder.p999.mem, ladder.p9999.mem, fun _ none => absurd none List.not_mem_nil⟩
  exact {
    min_le := low _ ladder.p50.mem
    ascending := ladder.ascending
    le_max := high _ ladder.p9999.mem
    latencies := fun ms hms => List.mem_filterMap.mp (samples ms hms)
    sum := ⟨List.card_nsmul_le_sum _ _ low, List.sum_le_card_nsmul _ _ high⟩
    top := fun few => by
      -- Below ten thousand samples 99.99% of them are more than all but one.
      apply Nat.le_antisymm (high _ ladder.p9999.mem)
      apply ladder.p9999.le_of_mem _ highMem
      change 0 < (Measure.latency.values rs).length at h
      change (Measure.latency.values rs).length < 10000 at few
      unfold fullRank
      omega }

theorem coherent_ofRecords : (ofRecords rs).Coherent rs where
  records := count_add_partials rs
  errors := by
    rw [count_add_partials]
    exact List.countP_le_length
  routes := by
    rw [count_add_partials]
    exact length_prevRoutes_le rs
  measured := measured_ofRecords rs
  unmeasured none := by
    have values : Measure.latency.values rs = [] := List.length_eq_zero_iff.mp none
    refine ⟨?_, ?_, ?_, ?_⟩
    · simp [ofRecords, Measure.total, values]
    · simp [ofRecords, values, extreme]
    · simp [ofRecords, values, extreme]
    · simp only [ofRecords, values, Ladder.ofSamples_nil]
      rfl

end EndpointStats

/-! ## A snapshot -/

namespace Snapshot

/-- The records that an entry is about: all of them for the aggregate, for every other name those that
are counted under it. -/
def scope (k : String) (rs : List Record) : List Record :=
  if k = allKey then rs else Record.ofBucket k rs

/-- Every entry of a snapshot that is taken, the aggregate's included, is coherent with the records
it is about. -/
theorem entries_coherent (rs : List Record) (s : Snapshot) (log : List Notice)
    (h : ofRecords rs = .ok (s, log)) :
    (∃ all, s.get? "all" = some all) ∧ ∀ k st, s.get? k = some st → st.Coherent (scope k rs) := by
  have fits : Fits rs := fits_of_ne_overflow fun o ho => by
    rw [h] at ho
    cases ho
  rw [ofRecords_of_fits fits] at h
  cases h
  refine ⟨⟨_, get?_described_allKey rs⟩, fun k st hst => ?_⟩
  unfold scope
  by_cases hk : k = allKey
  · subst hk
    rw [get?_described_allKey] at hst
    cases hst
    exact EndpointStats.coherent_ofRecords rs
  · rw [get?_described_of_ne hk] at hst
    split at hst
    · cases hst
      rw [if_neg hk]
      exact EndpointStats.coherent_ofRecords _
    · cases hst

/-- Records of an endpoint, without and with latencies, and of another whose only record has none. -/
def uneven : List Record :=
  let time : Int → Option Timestamp := Timestamp.ofMicros?
  [ { endpoint := "a", prevRoute := "b", begun := time 0, ended := time 30000, error := some "e" },
    { endpoint := "a", prevRoute := "c", begun := time 0, ended := time 7000 },
    { endpoint := "a", ended := time 5000 },
    { endpoint := "", error := some "e", begun := time 0 },
    { endpoint := "a", prevRoute := "b", begun := time 9000, ended := time 2000 } ]

theorem entries_coherent_uneven :
    ∃ s log all a unknown, ofRecords uneven = .ok (s, log) ∧
      s.get? "all" = some all ∧ s.get? "a" = some a ∧ s.get? "unknown" = some unknown ∧
      all.count + all.partials = 5 ∧ a.count = 3 ∧ a.count + a.partials = 4 ∧
      a.prevRoutes.length ≤ a.count + a.partials ∧ a.minMs ≤ a.percentiles.p50 ∧
      a.percentiles.p9999 = a.maxMs ∧ a.sumMs ≤ a.count * a.maxMs ∧
      (∃ r ∈ scope "a" uneven, r.latency = some a.maxMs) ∧
      unknown.count + unknown.partials = 1 ∧ unknown.percentiles = {} := by
  have fits : Fits uneven := by decide
  have taken := ofRecords_of_fits fits
  obtain ⟨⟨all, shownAll⟩, coherent⟩ := entries_coherent uneven _ _ taken
  have shown {k : String} (hk : k ≠ allKey) (here : k ∈ uneven.map Record.bucket) :
      (described uneven).get? k = some (EndpointStats.ofRecords (Record.ofBucket k uneven)) := by
    rw [get?_described_of_ne hk, if_pos here]
  have shownA := shown (k := "a") (by decide) (by decide)
  have shownUnknown := shown (k := "unknown") (by decide) (by decide)
  have three : (EndpointStats.ofRecords (Record.ofBucket "a" uneven)).count = 3 := by decide
  have a := coherent "a" _ shownA
  have unknown := coherent "unknown" _ shownUnknown
  have measured := a.measured (by rw [three]; decide)
  obtain ⟨-, -, -, noLadder⟩ := unknown.unmeasured (by decide)
  exact ⟨_, _, all, _, _, taken, shownAll, shownA, shownUnknown, (coherent "all" all shownAll).records,
    three, a.records, a.routes, measured.min_le, measured.top (by rw [three]; decide), measured.sum.2,
    measured.latencies _ (by simp), unknown.records, noLadder⟩

end Snapshot

end RequestMeter
