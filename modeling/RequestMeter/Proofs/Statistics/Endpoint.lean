import RequestMeter.Proofs.Statistics.Accumulator

/-! # Statistics of a list of records

What the statistics of some records are, said by their list alone.  Finishing the accumulator of the
records gives these statistics, and they do not depend on the order of the records or on their endpoint.
-/
namespace RequestMeter

def EndpointStats.ofRecords (rs : List Record) : EndpointStats where
  count := (Measure.latency.values rs).length
  sumMs := Measure.latency.total rs
  minMs := extreme min (Measure.latency.values rs)
  maxMs := extreme max (Measure.latency.values rs)
  avgMs := Accumulator.mean (Measure.latency.total rs) (Measure.latency.values rs).length
  percentiles := (Ladder.ofSamples (Measure.latency.values rs)).toOption.getD {}
  errors := rs.countP (·.isError)
  partials := rs.countP (·.latency.isNone)
  ttfbAvgMs := Accumulator.mean (Measure.firstByte.total rs) (Measure.firstByte.values rs).length
  inThroughput := Accumulator.perSecond (Measure.inBytes.total rs) (Measure.inSecs.total rs)
  outThroughput := Accumulator.perSecond (Measure.outBytes.total rs) (Measure.outSecs.total rs)
  prevRoutes := (Table.tabulate (fun _ => ()) (Record.routes rs)).keys

/-- Finishing what was gathered from some records never fails. -/
theorem Accumulator.finish_ofRecords (rs : List Record) (k : String) :
    (ofRecords rs).finish k = .ok (EndpointStats.ofRecords rs) := by
  unfold finish
  by_cases h : (ofRecords rs).count = 0
  · have none : Measure.latency.values rs = [] := List.length_eq_zero_iff.mp h
    have ladder : (Ladder.ofSamples (Measure.latency.values rs)).toOption.getD {} = {} := by
      rw [none, Ladder.ofSamples_nil]
      rfl
    rw [if_pos h, EndpointStats.ofRecords, ladder]
    rfl
  · have some : Measure.latency.values rs ≠ [] := fun he => h (List.length_eq_zero_iff.mpr he)
    obtain ⟨l, hl⟩ := Ladder.exists_ofSamples some
    have samples : Ladder.ofSamples (ofRecords rs).samples = .ok l :=
      (Ladder.ofSamples_perm (List.reverse_perm _)).trans hl
    rw [if_neg h, samples, EndpointStats.ofRecords, hl]
    rfl

namespace EndpointStats

theorem ofRecords_nil : ofRecords [] = {} := by
  rw [ofRecords, Measure.values_nil, Ladder.ofSamples_nil]
  rfl

theorem count_ofRecords (rs : List Record) :
    (ofRecords rs).count = rs.countP (·.latency.isSome) := List.length_filterMap_eq_countP

theorem count_add_partials (rs : List Record) :
    (ofRecords rs).count + (ofRecords rs).partials = rs.length := by
  rw [count_ofRecords, List.length_eq_countP_add_countP (·.latency.isSome)]
  congr 1
  apply List.countP_congr
  intro r _
  simp

/-- Statistics do not depend on the order of the records. -/
theorem ofRecords_perm {rs qs : List Record} (h : rs.Perm qs) : ofRecords rs = ofRecords qs := by
  have values (m : Measure) : (m.values rs).Perm (m.values qs) := m.values_perm h
  have routes : Table.tabulate (fun _ => ()) (Record.routes rs) =
      Table.tabulate (fun _ => ()) (Record.routes qs) := by
    apply Table.tabulate_congr
    intro p
    simp only [Record.mem_routes, h.mem_iff]
  simp only [ofRecords, (values _).length_eq, Measure.total_perm _ h, extreme_perm (values _),
    Ladder.ofSamples_perm (values _), h.countP_eq, routes]

end EndpointStats

end RequestMeter
