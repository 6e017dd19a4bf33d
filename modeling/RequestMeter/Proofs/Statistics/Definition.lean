import RequestMeter.Proofs.Binary64
import RequestMeter.Proofs.Statistics.Snapshot

/-! # Statistics by definition

Every value of an endpoint's statistics is defined by the list of its records: numbers, sums and
extremes of what they took, averages and throughput of exact sums, and the set of routes they came
from.  A snapshot that does not overflow shows exactly these values, for exactly the endpoints with a
record.
-/
namespace RequestMeter

def average (xs : List Nat) : Binary64 :=
  if xs = [] then .zero else (Binary64.ofNat xs.sum).div (Binary64.ofNat xs.length)

/-- Bytes by seconds over the records whose window has at least one whole second, zero for none. -/
def throughput (bytes : Record → Nat) (window : Record → Option Nat) (rs : List Record) : Nat :=
  let measured := rs.filter fun r => 1 ≤ (window r).getD 0
  if measured = [] then 0
  else (measured.map bytes).sum / (measured.map fun r => (window r).getD 0).sum

/-- What it means for statistics to be those of some records. -/
structure EndpointStats.Describes (st : EndpointStats) (rs : List Record) : Prop where
  count : st.count = rs.countP (·.latency.isSome)
  partials : st.partials = rs.countP (·.latency.isNone)
  sum : st.sumMs = (rs.filterMap Record.latency).sum
  min : st.minMs = (rs.filterMap Record.latency).min?.getD 0
  max : st.maxMs = (rs.filterMap Record.latency).max?.getD 0
  errors : st.errors = rs.countP (·.error.isSome)
  avg : st.avgMs = average (rs.filterMap Record.latency)
  ttfbAvg : st.ttfbAvgMs = average (rs.filterMap Record.timeToFirstByte)
  inThroughput : st.inThroughput = throughput Record.inBytes Record.inWindow rs
  outThroughput : st.outThroughput = throughput Record.outBytes Record.outWindow rs
  /-- The routes are a set: each is there once. -/
  distinct : st.prevRoutes.Nodup
  routes : ∀ p, p ∈ st.prevRoutes ↔ p ≠ "" ∧ ∃ r ∈ rs, r.prevRoute = p

/-! ## Averages and throughput -/

/-- An average of exact numbers below 2⁵³ is the number nearest to their quotient. -/
theorem average_eq_ofRatio {xs : List Nat} (hs : xs.sum < Nat.pow 2 53)
    (hl : xs.length < Nat.pow 2 53) : average xs = .ofRatio xs.sum xs.length := by
  unfold average
  by_cases h : xs = []
  · rw [if_pos h, h]
    exact (Binary64.ofRatio_zero _).symm
  · rw [if_neg h, Binary64.div_ofNat (mt List.length_eq_zero_iff.mp h) hs hl]

theorem mean_eq_average (xs : List Nat) : Accumulator.mean xs.sum xs.length = average xs := by
  unfold Accumulator.mean average
  simp only [List.length_eq_zero_iff]

theorem wholeWindow_eq (window : Option Nat) :
    Accumulator.wholeWindow window = if 1 ≤ window.getD 0 then some (window.getD 0) else none := by
  cases window with
  | none => rfl
  | some secs =>
    simp [Accumulator.wholeWindow, Option.filter, Nat.one_le_iff_ne_zero, Nat.pos_iff_ne_zero]

theorem values_of_window {m : Measure} {window : Record → Option Nat} {value : Record → Nat}
    (rs : List Record)
    (h : ∀ r, m.of? r = if 1 ≤ (window r).getD 0 then some (value r) else none) :
    m.values rs = (rs.filter fun r => 1 ≤ (window r).getD 0).map value := by
  rw [← List.filterMap_eq_map', List.filterMap_filter]
  apply List.filterMap_congr
  intro r _
  simp [h]

theorem perSecond_eq_throughput {bytes secs : Measure} {length : Record → Nat}
    {window : Record → Option Nat} (rs : List Record)
    (hb : ∀ r, bytes.of? r = (Accumulator.wholeWindow (window r)).map fun _ => length r)
    (hs : ∀ r, secs.of? r = Accumulator.wholeWindow (window r)) :
    Accumulator.perSecond (bytes.total rs) (secs.total rs) = throughput length window rs := by
  have bytesOf : bytes.values rs = (rs.filter fun r => 1 ≤ (window r).getD 0).map length := by
    apply values_of_window
    intro r
    rw [hb, wholeWindow_eq]
    split <;> rfl
  have secsOf : secs.values rs =
      (rs.filter fun r => 1 ≤ (window r).getD 0).map fun r => (window r).getD 0 := by
    apply values_of_window
    intro r
    rw [hs, wholeWindow_eq]
  rw [Measure.total, Measure.total, bytesOf, secsOf, Accumulator.perSecond, throughput]
  by_cases h : (rs.filter fun r => 1 ≤ (window r).getD 0) = []
  · rw [h, if_pos rfl]
    rfl
  · rw [if_neg h]
    split
    · rename_i hz
      rw [hz, Nat.div_zero]
    · rfl

/-! ## Statistics of a list -/

theorem EndpointStats.describes_ofRecords (rs : List Record) : (ofRecords rs).Describes rs where
  count := count_ofRecords rs
  partials := rfl
  sum := rfl
  min := extreme_min _
  max := extreme_max _
  errors := rfl
  avg := mean_eq_average _
  ttfbAvg := mean_eq_average _
  inThroughput := perSecond_eq_throughput rs (fun _ => rfl) fun _ => rfl
  outThroughput := perSecond_eq_throughput rs (fun _ => rfl) fun _ => rfl
  distinct := Table.nodup_keys _
  routes _ := Table.mem_keys_tabulate.trans Record.mem_routes

/-! ## Statistics of a snapshot -/

namespace Snapshot

/-- A snapshot that does not overflow is taken.  It has an entry for the aggregate and one for each
name under which a record is counted, "unknown" for an endpoint without a name.  The entry of every
name but the aggregate's shows what its records are by definition; and as long as sum and number are
below 2⁵³, an average is the number nearest to their quotient. -/
theorem entries_describe (rs : List Record) (h : ∀ o, ofRecords rs ≠ .error (.overflow o)) :
    ∃ s log, ofRecords rs = .ok (s, log) ∧
      (∀ k, s.get? k ≠ none ↔
        k = "all" ∨ ∃ r ∈ rs, (if r.endpoint = "" then "unknown" else r.endpoint) = k) ∧
      (∀ k st, k ≠ "all" → s.get? k = some st →
        st.Describes (rs.filter fun r => (if r.endpoint = "" then "unknown" else r.endpoint) = k)) ∧
      ∀ xs : List Nat, xs.sum < Nat.pow 2 53 → xs.length < Nat.pow 2 53 →
        average xs = .ofRatio xs.sum xs.length := by
  refine ⟨_, _, ofRecords_of_fits (fits_of_ne_overflow h), fun k => ?_, fun k st hk hst => ?_,
    fun xs hs hl => average_eq_ofRatio hs hl⟩
  · have names : k ∈ rs.map Record.bucket ↔
        ∃ r ∈ rs, (if r.endpoint = "" then "unknown" else r.endpoint) = k := List.mem_map
    exact get?_described_ne_none_iff.trans (or_congr_right names)
  · rw [get?_described_of_ne hk] at hst
    split at hst
    · cases hst
      exact EndpointStats.describes_ofRecords _
    · cases hst

/-- Records of an endpoint, one of them without a begin, and of endpoints without a name and with the
name of the aggregate. -/
def mixed : List Record :=
  let time : Int → Option Timestamp := Timestamp.ofMicros?
  [ { endpoint := "a", prevRoute := "b", begun := time 0, ended := time 30000,
      firstByte := time 10000, inCapture := time 2000000, inBytes := 500 },
    { endpoint := "", error := some "", begun := time 0, ended := time 7000 },
    { endpoint := "a", ended := time 5000, error := some "e", inBytes := 900 },
    { endpoint := "all", begun := time 0, ended := time 2000 },
    { endpoint := "a", prevRoute := "b", begun := time 0, ended := time 11000,
      inCapture := time 999999, inBytes := 700 } ]

theorem entries_describe_mixed :
    (∀ o, ofRecords mixed ≠ .error (.overflow o)) ∧
    ∃ s log st, ofRecords mixed = .ok (s, log) ∧ s.get? "unknown" ≠ none ∧ s.get? "" = none ∧
      s.get? "a" = some st ∧ st.count = 2 ∧ st.partials = 1 ∧ st.sumMs = 41 ∧ st.minMs = 11 ∧
      st.maxMs = 30 ∧ st.errors = 1 ∧ st.avgMs = .ofRatio 41 2 ∧ st.inThroughput = 250 ∧
      st.prevRoutes.Nodup ∧ ∀ p, p ∈ st.prevRoutes ↔ p = "b" := by
  have fits : Fits mixed := by decide
  have taken : ∀ o, ofRecords mixed ≠ .error (.overflow o) :=
    fun o ho => ofRecords_eq_overflow_iff.mp ho fits
  obtain ⟨s, log, hs, keys, entries, nearest⟩ := entries_describe mixed taken
  obtain ⟨st, hst⟩ := Option.ne_none_iff_exists'.mp ((keys "a").mpr (.inr (by decide)))
  have a := entries "a" st (by decide) hst
  refine ⟨taken, s, log, st, hs, (keys _).mpr (.inr (by decide)), ?_, hst, a.count, a.partials,
    a.sum, a.min, a.max, a.errors, a.avg.trans (nearest _ (by decide) (by decide)), a.inThroughput,
    a.distinct, fun p => ?_⟩
  · by_contra shown
    exact absurd ((keys _).mp shown) (by decide)
  · have named : (mixed.filter fun r =>
        (if r.endpoint = "" then "unknown" else r.endpoint) = "a").map (·.prevRoute) =
        ["b", "", "b"] := by decide
    rw [a.routes, ← List.mem_map, named]
    constructor
    · rintro ⟨ne, hp⟩
      simpa [ne] using hp
    · rintro rfl
      decide

end Snapshot

end RequestMeter
