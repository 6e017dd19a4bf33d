import RequestMeter.Proofs.Statistics.Snapshot

/-! # The aggregate and the order of records

The aggregate is made by merging the buckets of all endpoints in the order of their names, yet it is
what a single bucket of all records would be.  And neither the aggregate nor any other entry depends
on the order in which the records come: a rearrangement overflows with the list or has the same
snapshot.
-/
namespace RequestMeter

/-! ## Records of another endpoint -/

def Record.movedTo (k : String) (r : Record) : Record := { r with endpoint := k }

theorem Measure.values_movedTo (m : Measure) (k : String) (rs : List Record) :
    m.values (rs.map (Record.movedTo k)) = m.values rs := by
  rw [values, List.filterMap_map]
  apply List.filterMap_congr
  intro r _
  cases m <;> rfl

theorem Measure.total_movedTo (m : Measure) (k : String) (rs : List Record) :
    m.total (rs.map (Record.movedTo k)) = m.total rs := by
  rw [total, values_movedTo, ← total]

theorem fits_movedTo {k : String} {rs : List Record} :
    Fits (rs.map (Record.movedTo k)) ↔ Fits rs := by
  unfold Fits
  simp only [Measure.total_movedTo]

theorem EndpointStats.ofRecords_movedTo (k : String) (rs : List Record) :
    ofRecords (rs.map (Record.movedTo k)) = ofRecords rs := by
  have routes : Record.routes (rs.map (Record.movedTo k)) = Record.routes rs := by
    rw [Record.routes, List.map_map]
    rfl
  have errors : (rs.map (Record.movedTo k)).countP (·.isError) = rs.countP (·.isError) := by
    rw [List.countP_map]
    rfl
  have partials : (rs.map (Record.movedTo k)).countP (·.latency.isNone) =
      rs.countP (·.latency.isNone) := by
    rw [List.countP_map]
    rfl
  simp only [ofRecords, Measure.values_movedTo, Measure.total_movedTo, routes, errors, partials]

theorem Record.ofBucket_movedTo {k : String} (hk : k ≠ "") (rs : List Record) :
    ofBucket k (rs.map (movedTo k)) = rs.map (movedTo k) := by
  apply List.filter_eq_self.mpr
  intro r hr
  obtain ⟨q, -, rfl⟩ := List.mem_map.mp hr
  simp [bucket, movedTo, hk]

/-! ## Extremes over buckets -/

/-- An extreme of several lists is the extreme of what those with samples have. -/
theorem extreme_flatten {choose : Nat → Nat → Nat} [Std.Associative choose]
    (parts : List (List Nat)) :
    extreme choose parts.flatten =
      extreme choose ((parts.filter (0 < ·.length)).map (extreme choose)) := by
  induction parts with
  | nil => rfl
  | cons xs parts ih =>
    have empty : parts.flatten.length = 0 ↔
        ((parts.filter (0 < ·.length)).map (extreme choose)).length = 0 := by
      simp [-List.length_flatten, List.length_eq_zero_iff]
    rw [List.flatten_cons]
    by_cases hx : xs = []
    · subst hx
      exact ih
    · have more : 0 < xs.length := List.length_pos_iff.mpr hx
      rw [List.filter_cons_of_pos (by simpa using more), List.map_cons, ← List.singleton_append,
        extreme_append xs, extreme_append [extreme choose xs], extreme_singleton, ih,
        if_neg (Nat.ne_of_gt more)]
      simp only [empty, List.length_singleton, Nat.one_ne_zero, if_false]

/-! ## The aggregate as one bucket -/

namespace Snapshot

def latencies (rs : List Record) : List (List Nat) :=
  (bucketsOf rs).keys.map fun k => Measure.latency.values (Record.ofBucket k rs)

theorem flatten_latencies (rs : List Record) :
    (latencies rs).flatten = Measure.latency.values (regrouped rs) := by
  rw [Measure.values, regrouped, List.filterMap_flatMap]
  rfl

theorem flatten_latencies_perm (rs : List Record) :
    (latencies rs).flatten.Perm (Measure.latency.values rs) := by
  rw [flatten_latencies]
  exact Measure.values_perm _ (regrouped_perm rs)

/-- An extreme of all latencies is that of what the buckets with samples hold. -/
theorem extreme_bucketsOf {choose : Nat → Nat → Nat} [Std.Associative choose]
    [Std.Commutative choose] {held : Accumulator → Nat}
    (h : ∀ rs, held (Accumulator.ofRecords rs) = extreme choose (Measure.latency.values rs))
    (rs : List Record) :
    extreme choose (Measure.latency.values rs) =
      extreme choose (((bucketsOf rs).values.filter (0 < ·.count)).map held) := by
  have holding : ((bucketsOf rs).values.filter (0 < ·.count)).map held =
      ((latencies rs).filter (0 < ·.length)).map (extreme choose) := by
    rw [values_bucketsOf, latencies, List.map_map, List.filter_map, List.filter_map, List.map_map,
      List.map_map]
    apply List.map_congr_left
    intro k _
    exact h _
  rw [holding, ← extreme_flatten]
  exact (extreme_perm (flatten_latencies_perm rs)).symm

theorem samples_bucketsOf_perm (rs : List Record) :
    ((bucketsOf rs).values.flatMap (·.samples)).Perm (Measure.latency.values rs) := by
  have unordered : ((bucketsOf rs).values.flatMap (·.samples)).Perm (latencies rs).flatten := by
    rw [values_bucketsOf, List.map_map, List.flatMap_map]
    apply List.Perm.flatMap_left
    intro k _
    exact List.reverse_perm _
  exact unordered.trans (flatten_latencies_perm rs)

/-- A snapshot overflows exactly when the sums over all records do not fit, and then it does so with
all records moved to one endpoint too.  Otherwise its aggregate has the statistics of that endpoint,
all zero if there is no record.  It counts every record, whatever its bucket, has the extremes of
the buckets with samples, and the percentiles of all their samples together. -/
theorem aggregate_eq_single (rs : List Record) :
    let single := rs.map (Record.movedTo "x")
    (¬ Fits rs ∧ ofRecords rs = .error (.overflow {}) ∧
      ofRecords single = .error (.overflow {})) ∨
    Fits rs ∧ ∃ s log t more b all,
      ofRecords rs = .ok (s, log) ∧ ofRecords single = .ok (t, more) ∧ collect rs = .ok b ∧
      s.get? "all" = some all ∧ all = (t.get? "x").getD {} ∧ (t.get? "x" = none ↔ rs = []) ∧
      all.count + all.partials = rs.length ∧
      all.minMs = ((b.values.filter (0 < ·.count)).map (·.low)).min?.getD 0 ∧
      all.maxMs = ((b.values.filter (0 < ·.count)).map (·.high)).max?.getD 0 ∧
      all.percentiles = (Ladder.ofSamples (b.values.flatMap (·.samples))).toOption.getD {} := by
  intro single
  by_cases fits : Fits rs
  · right
    have entry : (described single).get? "x" =
        if rs = [] then none else some (EndpointStats.ofRecords rs) := by
      have here : Record.ofBucket "x" single = single := Record.ofBucket_movedTo (by decide) rs
      have named : "x" ∈ single.map Record.bucket ↔ rs ≠ [] := by
        rw [← not_iff_not, ← Record.ofBucket_eq_nil_iff, here, List.map_eq_nil_iff, not_not]
      rw [get?_described_of_ne (by decide), here, EndpointStats.ofRecords_movedTo]
      simp only [named, ite_not]
    refine ⟨fits, _, _, _, _, _, _, ofRecords_of_fits fits, ofRecords_of_fits (fits_movedTo.mpr fits),
      collect_eq_ok_iff.mpr ⟨fun k => fits.of_sublist List.filter_sublist, rfl⟩,
      get?_described_allKey rs, ?_, ?_, EndpointStats.count_add_partials rs, ?_, ?_, ?_⟩
    · rw [entry]
      split
      · rename_i none
        rw [none, EndpointStats.ofRecords_nil]
        rfl
      · rfl
    · rw [entry]
      split <;> simp [*]
    · rw [← extreme_min]
      exact extreme_bucketsOf (fun _ => rfl) rs
    · rw [← extreme_max]
      exact extreme_bucketsOf (fun _ => rfl) rs
    · rw [Ladder.ofSamples_perm (samples_bucketsOf_perm rs)]
      rfl
  · left
    exact ⟨fits, ofRecords_of_not_fits fits, ofRecords_of_not_fits (mt fits_movedTo.mp fits)⟩

/-- Two records of an endpoint, the slower one first, and between them one that is not complete and
one of an endpoint with the name of the aggregate. -/
def scattered : List Record :=
  let time : Int → Option Timestamp := Timestamp.ofMicros?
  [ { endpoint := "a", prevRoute := "r", begun := time 0, ended := time 9000 },
    { endpoint := "", error := some "e", ended := time 1000 },
    { endpoint := "all", begun := time 0, ended := time 4000, outCapture := time 3000000,
      outBytes := 10 },
    { endpoint := "a", prevRoute := "q", begun := time 0, ended := time 2000 } ]

/-- The aggregate has the records of all endpoints, and is all zero where there is none. -/
theorem aggregate_eq_single_scattered :
    (∃ s log t more all, ofRecords scattered = .ok (s, log) ∧
      ofRecords (scattered.map (Record.movedTo "x")) = .ok (t, more) ∧
      s.get? "all" = some all ∧ t.get? "x" = some all ∧ all.count + all.partials = 4) ∧
    ∃ s log, ofRecords [] = .ok (s, log) ∧ s.get? "all" = some {} := by
  constructor
  · rcases aggregate_eq_single scattered with ⟨past, -⟩ |
      ⟨-, s, log, t, more, -, all, taken, single, -, entry, same, here, number, -⟩
    · exact absurd (by decide) past
    · refine ⟨s, log, t, more, all, taken, single, entry, ?_, number⟩
      cases found : t.get? "x" with
      | none => exact absurd (here.mp found) (by decide)
      | some other => rw [same, found, Option.getD_some]
  · rcases aggregate_eq_single [] with ⟨past, -⟩ |
      ⟨-, s, log, t, more, -, all, taken, -, -, entry, same, here, -⟩
    · exact absurd fits_nil past
    · refine ⟨s, log, taken, ?_⟩
      rw [entry, same, here.mpr rfl, Option.getD_none]

/-! ## The order of records -/

theorem described_perm {rs qs : List Record} (h : rs.Perm qs) : described rs = described qs := by
  ext k : 1
  by_cases hk : k = allKey
  · subst hk
    rw [get?_described_allKey, get?_described_allKey, EndpointStats.ofRecords_perm h]
  · rw [get?_described_of_ne hk, get?_described_of_ne hk,
      EndpointStats.ofRecords_perm (Record.ofBucket_perm k h)]
    exact if_congr (h.map _).mem_iff rfl rfl

theorem shadowNotices_perm {rs qs : List Record} (h : rs.Perm qs) :
    shadowNotices (bucketsOf rs) = shadowNotices (bucketsOf qs) := by
  have shadowed (rs : List Record) :
      ((bucketsOf rs).get? allKey).isSome ↔ allKey ∈ rs.map Record.bucket := by
    rw [bucketsOf, Table.get?_tabulate]
    split <;> simp [*]
  unfold shadowNotices
  simp only [shadowed, (h.map _).mem_iff]

/-- The order of the records makes no difference: a rearranged list overflows as well, or has the same
snapshot, equal in every value of every entry, and the same notices. -/
theorem outcome_perm (rs qs : List Record) (h : rs.Perm qs) :
    (ofRecords rs = .error (.overflow {}) ∧ ofRecords qs = .error (.overflow {})) ∨
      ∃ s log, ofRecords rs = .ok (s, log) ∧ ofRecords qs = .ok (s, log) := by
  by_cases fits : Fits rs
  · right
    refine ⟨_, _, ofRecords_of_fits fits, ?_⟩
    rw [ofRecords_of_fits ((fits_perm h).mp fits), described_perm h, shadowNotices_perm h]
  · left
    exact ⟨ofRecords_of_not_fits fits, ofRecords_of_not_fits (mt (fits_perm h).mpr fits)⟩

theorem outcome_perm_scattered :
    scattered.Perm scattered.reverse ∧ scattered ≠ scattered.reverse ∧
      ∃ s log, ofRecords scattered = .ok (s, log) ∧ ofRecords scattered.reverse = .ok (s, log) := by
  have reversed : scattered.Perm scattered.reverse := (List.reverse_perm _).symm
  have fits : Fits scattered := by decide
  refine ⟨reversed, by decide, ?_⟩
  rcases outcome_perm _ _ reversed with ⟨overflow, -⟩ | same
  · exact absurd fits (ofRecords_eq_overflow_iff.mp overflow)
  · exact same

end Snapshot

end RequestMeter
