import RequestMeter.Proofs.Statistics.Coherence
import RequestMeter.Proofs.Statistics.Definition
import Mathlib.Algebra.BigOperators.Ring.List

/-! # Throughput as an average

Throughput divides bytes that were added up by seconds that were added up.  Both sums take the same
records, those whose window has a whole second, so the quotient lies between the least and the greatest
rate of these records.  The aggregate adds up the sums of the buckets, and lies between their rates in the
same way.  No other record has any part in it.
-/
namespace RequestMeter

/-! ## Quotients of sums -/

/-- Bytes and the seconds in which they came, as whole bytes per second. -/
def rate (part : Nat × Nat) : Nat := part.1 / part.2

/-- A number is neither below the least nor above the greatest of some numbers. -/
def Between (x : Nat) (xs : List Nat) : Prop :=
  ∃ low high, xs.min? = some low ∧ xs.max? = some high ∧ low ≤ x ∧ x ≤ high

theorem between_of_bounds {x : Nat} {xs : List Nat} (some : xs ≠ [])
    (above : ∀ low, (∀ y ∈ xs, low ≤ y) → low ≤ x)
    (below : ∀ high, (∀ y ∈ xs, y ≤ high) → x ≤ high) :
    Between x xs := by
  obtain ⟨low, hl⟩ := Option.ne_none_iff_exists'.mp (mt List.min?_eq_none_iff.mp some)
  obtain ⟨high, hh⟩ := Option.ne_none_iff_exists'.mp (mt List.max?_eq_none_iff.mp some)
  exact ⟨low, high, hl, hh, above low (List.min?_eq_some_iff.mp hl).2,
    below high (List.max?_eq_some_iff.mp hh).2⟩

theorem Between.eq_of_forall {x y : Nat} {xs : List Nat} (h : Between x xs)
    (same : ∀ z ∈ xs, z = y) :
    x = y := by
  obtain ⟨low, high, hl, hh, above, below⟩ := h
  have least : low = y := same low (List.min?_eq_some_iff.mp hl).1
  have greatest : high = y := same high (List.max?_eq_some_iff.mp hh).1
  omega

def together (parts : List (Nat × Nat)) : Nat × Nat :=
  ((parts.map (·.1)).sum, (parts.map (·.2)).sum)

theorem together_cons (p : Nat × Nat) (parts : List (Nat × Nat)) :
    together (p :: parts) = (p.1 + (together parts).1, p.2 + (together parts).2) := by
  rw [together, List.map_cons, List.map_cons, List.sum_cons, List.sum_cons]
  rfl

theorem together_perm {parts others : List (Nat × Nat)} (h : parts.Perm others) :
    together parts = together others := by
  rw [together, together, (h.map _).sum_nat, (h.map _).sum_nat]

theorem together_flatten (groups : List (List (Nat × Nat))) :
    together groups.flatten = together (groups.map together) := by
  simp only [together, List.map_flatten, List.sum_flatten, List.map_map]
  rfl

variable {parts : List (Nat × Nat)}

theorem seconds_together_pos (some : parts ≠ []) (whole : ∀ p ∈ parts, 0 < p.2) :
    0 < (together parts).2 := by
  have more := List.sum_lt_sum_of_ne_nil (f := fun _ => 0) some (·.2) whole
  simpa [together] using more

/-- A rate below that of every part is below that of all together. -/
theorem le_rate_together (some : parts ≠ []) (whole : ∀ p ∈ parts, 0 < p.2) {low : Nat}
    (h : ∀ p ∈ parts, low ≤ rate p) : low ≤ rate (together parts) := by
  rw [rate, Nat.le_div_iff_mul_le (seconds_together_pos some whole)]
  calc low * (together parts).2
      = (parts.map fun p => low * p.2).sum := (List.sum_map_mul_left parts (·.2) low).symm
    _ ≤ (together parts).1 := by
      apply List.sum_le_sum
      intro p hp
      exact (Nat.le_div_iff_mul_le (whole p hp)).mp (h p hp)

/-- A rate above that of every part is above that of all together. -/
theorem rate_together_le (some : parts ≠ []) (whole : ∀ p ∈ parts, 0 < p.2) {high : Nat}
    (h : ∀ p ∈ parts, rate p ≤ high) : rate (together parts) ≤ high := by
  rw [rate, ← Nat.lt_succ_iff, Nat.div_lt_iff_lt_mul (seconds_together_pos some whole)]
  calc (together parts).1
      < (parts.map fun p => (high + 1) * p.2).sum := by
        apply List.sum_lt_sum_of_ne_nil some
        intro p hp
        exact (Nat.div_lt_iff_lt_mul (whole p hp)).mp (Nat.lt_succ_of_le (h p hp))
    _ = (high + 1) * (together parts).2 := List.sum_map_mul_left parts (·.2) (high + 1)

theorem rate_together_between (some : parts ≠ []) (whole : ∀ p ∈ parts, 0 < p.2) :
    Between (rate (together parts)) (parts.map rate) := by
  apply between_of_bounds
  · simpa using some
  · intro low h
    exact le_rate_together some whole fun p hp => h _ (List.mem_map_of_mem hp)
  · intro high h
    exact rate_together_le some whole fun p hp => h _ (List.mem_map_of_mem hp)

/-- What it means for a rate to be an average of parts: there is none without parts, it lies between
theirs, and it is theirs if they are all the same. -/
structure IsAverage (x : Nat) (parts : List (Nat × Nat)) : Prop where
  none : parts = [] → x = 0
  between : parts ≠ [] → Between x (parts.map rate)
  same : ∀ p, parts ≠ [] → (∀ q ∈ parts, q = p) → x = rate p

theorem isAverage_rate_together (whole : ∀ p ∈ parts, 0 < p.2) :
    IsAverage (rate (together parts)) parts where
  none h := by
    rw [h]
    rfl
  between some := rate_together_between some whole
  same p some h := by
    apply (rate_together_between some whole).eq_of_forall
    intro x hx
    obtain ⟨q, hq, rfl⟩ := List.mem_map.mp hx
    rw [h q hq]

/-! ## Both directions -/

/-- The direction in which bytes go. -/
inductive Flow where
  | inbound
  | outbound
  deriving DecidableEq, Repr

namespace Flow

variable (f : Flow)

def bytes : Flow → Record → Nat
  | inbound => Record.inBytes
  | outbound => Record.outBytes

def capture : Flow → Record → Option Timestamp
  | inbound => Record.inCapture
  | outbound => Record.outCapture

def window : Flow → Record → Option Nat
  | inbound => Record.inWindow
  | outbound => Record.outWindow

def shown : Flow → EndpointStats → Nat
  | inbound => EndpointStats.inThroughput
  | outbound => EndpointStats.outThroughput

def gathered : Flow → Accumulator → Nat × Nat
  | inbound, a => (a.inBytes, a.inSecs)
  | outbound, a => (a.outBytes, a.outSecs)

/-- Whether the window of a record has at least one whole second. -/
def isTimed (r : Record) : Bool := 1 ≤ (f.window r).getD 0

def part (r : Record) : Nat × Nat := (f.bytes r, (f.window r).getD 0)

/-- The parts of the records that have a window of at least one second. -/
def partsOf (rs : List Record) : List (Nat × Nat) := (rs.filter f.isTimed).map f.part

theorem window_eq (r : Record) :
    f.window r = do return (← f.capture r).secondsSince (← r.begun) := by
  cases f <;> rfl

/-- A window has a whole second when begin and capture are known and the capture is a thousand million
nanoseconds after the begin. -/
theorem isTimed_iff {r : Record} :
    f.isTimed r = true ↔ ∃ b c, r.begun = some b ∧ f.capture r = some c ∧
      1000000000 ≤ c.nanosSince b := by
  rw [isTimed, decide_eq_true_eq, window_eq]
  cases hc : f.capture r with
  | none => simp
  | some c =>
    cases hb : r.begun with
    | none => simp
    | some b =>
      have whole : 1 ≤ c.secondsSince b ↔ 1000000000 ≤ c.nanosSince b := by
        rw [Timestamp.secondsSince]
        omega
      simpa using whole

theorem seconds_pos_of_mem {rs : List Record} {p : Nat × Nat} (h : p ∈ f.partsOf rs) : 0 < p.2 := by
  obtain ⟨r, hr, rfl⟩ := List.mem_map.mp h
  exact of_decide_eq_true (List.mem_filter.mp hr).2

def measures : Flow → Measure × Measure
  | inbound => (.inBytes, .inSecs)
  | outbound => (.outBytes, .outSecs)

theorem values_bytes (rs : List Record) :
    f.measures.1.values rs = (rs.filter f.isTimed).map f.bytes := by
  apply values_of_window
  intro r
  have measured : f.measures.1.of? r =
      (Accumulator.wholeWindow (f.window r)).map fun _ => f.bytes r := by cases f <;> rfl
  rw [measured, wholeWindow_eq]
  split <;> rfl

theorem values_seconds (rs : List Record) :
    f.measures.2.values rs = (rs.filter f.isTimed).map fun r => (f.window r).getD 0 := by
  apply values_of_window
  intro r
  have measured : f.measures.2.of? r = Accumulator.wholeWindow (f.window r) := by cases f <;> rfl
  rw [measured, wholeWindow_eq]

/-- What a bucket gathered are the parts of its records together. -/
theorem gathered_ofRecords (rs : List Record) :
    f.gathered (Accumulator.ofRecords rs) = together (f.partsOf rs) := by
  have totals : f.gathered (Accumulator.ofRecords rs) =
      (f.measures.1.total rs, f.measures.2.total rs) := by cases f <;> rfl
  rw [totals, Measure.total, Measure.total, values_bytes, values_seconds, together, partsOf,
    List.map_map, List.map_map]
  rfl

theorem shown_ofRecords (rs : List Record) :
    f.shown (EndpointStats.ofRecords rs) = rate (together (f.partsOf rs)) := by
  have quotient (bytes secs : Nat) : Accumulator.perSecond bytes secs = rate (bytes, secs) := by
    rw [Accumulator.perSecond, rate]
    split
    · rename_i none
      rw [none, Nat.div_zero]
    · rfl
  rw [← gathered_ofRecords]
  cases f with
  | inbound => exact quotient _ _
  | outbound => exact quotient _ _

end Flow

/-! ## Buckets put together -/

namespace Snapshot

variable (f : Flow)

def timedBuckets (b : Buckets) : List (Nat × Nat) := (b.values.map f.gathered).filter (0 < ·.2)

theorem bytes_eq_zero_of_seconds {rs : List Record} (h : (together (f.partsOf rs)).2 = 0) :
    (together (f.partsOf rs)).1 = 0 := by
  by_cases none : f.partsOf rs = []
  · rw [none]
    rfl
  · have some := seconds_together_pos none fun p => f.seconds_pos_of_mem
    omega

/-- Buckets without seconds add nothing. -/
theorem together_filter {parts : List (Nat × Nat)} (h : ∀ p ∈ parts, p.2 = 0 → p.1 = 0) :
    together (parts.filter (0 < ·.2)) = together parts := by
  induction parts with
  | nil => rfl
  | cons p parts ih =>
    rw [List.forall_mem_cons] at h
    have rest := ih h.2
    by_cases some : 0 < p.2
    · rw [List.filter_cons_of_pos (by simpa using some), together_cons, together_cons, rest]
    · have seconds : p.2 = 0 := Nat.eq_zero_of_not_pos some
      rw [List.filter_cons_of_neg (by simpa using seconds), together_cons, rest, h.1 seconds, seconds,
        Nat.zero_add, Nat.zero_add]

theorem together_timedBuckets (rs : List Record) :
    together (timedBuckets f (bucketsOf rs)) = together (f.partsOf rs) := by
  have groups : (bucketsOf rs).values.map f.gathered =
      ((bucketsOf rs).keys.map fun k => f.partsOf (Record.ofBucket k rs)).map together := by
    rw [values_bucketsOf, List.map_map, List.map_map, List.map_map]
    apply List.map_congr_left
    intro k _
    exact f.gathered_ofRecords _
  have whole : ((bucketsOf rs).keys.map fun k => f.partsOf (Record.ofBucket k rs)).flatten =
      f.partsOf (regrouped rs) := by
    simp only [Flow.partsOf, regrouped, List.flatMap, List.filter_flatten, List.map_flatten,
      List.map_map]
    rfl
  have regroup : (f.partsOf (regrouped rs)).Perm (f.partsOf rs) :=
    ((regrouped_perm rs).filter _).map _
  rw [timedBuckets, together_filter, groups, ← together_flatten, whole, together_perm regroup]
  intro p hp none
  rw [groups, List.map_map] at hp
  obtain ⟨k, -, rfl⟩ := List.mem_map.mp hp
  exact bytes_eq_zero_of_seconds f none

/-! ## A snapshot -/

theorem partsOf_eq_of_filter_eq {rs qs : List Record}
    (h : qs.filter f.isTimed = rs.filter f.isTimed) (k : String) :
    f.partsOf (scope k qs) = f.partsOf (scope k rs) := by
  rw [Flow.partsOf, Flow.partsOf]
  unfold scope
  split
  · rw [h]
  · rw [Record.ofBucket, Record.ofBucket, List.filter_comm, h, List.filter_comm]

theorem shown_described (rs : List Record) (k : String) :
    f.shown (((described rs).get? k).getD {}) = rate (together (f.partsOf (scope k rs))) := by
  unfold scope
  by_cases hk : k = allKey
  · rw [if_pos hk, hk, get?_described_allKey]
    exact f.shown_ofRecords rs
  · rw [if_neg hk, get?_described_of_ne hk, ← f.shown_ofRecords]
    split
    · rfl
    · rename_i absent
      rw [Record.ofBucket_eq_nil_iff.mpr absent, EndpointStats.ofRecords_nil]
      rfl

/-- The throughput of every entry of a snapshot that is taken, in either direction, is an average of
the rates of the records in its scope that have a window of at least one second; so is that of the
aggregate of the rates of the buckets with such a window, the bucket with the aggregate's name
included.  A snapshot of any records with the same timed ones among them shows the same throughput.
-/
theorem throughput_averages (rs : List Record) (s : Snapshot) (log : List Notice)
    (h : ofRecords rs = .ok (s, log)) (f : Flow) :
    (∀ k st, s.get? k = some st →
      IsAverage (f.shown st) (((scope k rs).filter f.isTimed).map f.part)) ∧
    (∃ all b, s.get? "all" = some all ∧ collect rs = .ok b ∧
      IsAverage (f.shown all) ((b.values.map f.gathered).filter (0 < ·.2))) ∧
    (∀ qs t more, ofRecords qs = .ok (t, more) → qs.filter f.isTimed = rs.filter f.isTimed →
      ∀ k, f.shown ((t.get? k).getD {}) = f.shown ((s.get? k).getD {})) ∧
    ∀ r, f.isTimed r = true ↔ ∃ b c, r.begun = some b ∧ f.capture r = some c ∧
      1000000000 ≤ c.nanosSince b := by
  obtain ⟨fits, rfl⟩ := eq_described_of_eq_ok h
  refine ⟨fun k st shown => ?_, ?_, fun qs t more ht same k => ?_, fun r => f.isTimed_iff⟩
  · have entry := shown_described f rs k
    rw [shown, Option.getD_some] at entry
    rw [entry]
    exact isAverage_rate_together fun p => f.seconds_pos_of_mem
  · have collected : collect rs = .ok (bucketsOf rs) :=
      collect_eq_ok_iff.mpr ⟨fun k => fits.of_sublist List.filter_sublist, rfl⟩
    refine ⟨_, _, get?_described_allKey rs, collected, ?_⟩
    rw [f.shown_ofRecords, ← together_timedBuckets]
    apply isAverage_rate_together
    intro p hp
    exact of_decide_eq_true (List.mem_filter.mp hp).2
  · obtain ⟨-, rfl⟩ := eq_described_of_eq_ok ht
    rw [shown_described, shown_described, partsOf_eq_of_filter_eq f same]

/-- Records of an endpoint, some of them without a whole second or captured before their begin, and
one of an endpoint with the name of the aggregate. -/
def staggered : List Record :=
  let time : Int → Option Timestamp := Timestamp.ofMicros?
  [ { endpoint := "a", begun := time 0, inCapture := time 2999999, inBytes := 501 },
    { endpoint := "a", begun := time 0, inCapture := time 999999, inBytes := 90000 },
    { endpoint := "all", begun := time 0, inCapture := time 1000000, inBytes := 900 },
    { endpoint := "a", begun := time 5000000, inCapture := time 0, inBytes := 80000 },
    { endpoint := "a", inCapture := time 7000000, inBytes := 70000 },
    { endpoint := "a", begun := time 1000000, inCapture := time 2000000, inBytes := 100 } ]

/-- The rates of the timed records are 250 and 100, those of the buckets 200 and 900, and the other
records might as well not be there. -/
theorem throughput_averages_staggered :
    ∃ s log t more a all, ofRecords staggered = .ok (s, log) ∧
      ofRecords (staggered.filter Flow.inbound.isTimed) = .ok (t, more) ∧
      s.get? "a" = some a ∧ s.get? "all" = some all ∧
      Between a.inThroughput [250, 100] ∧ a.outThroughput = 0 ∧
      Between all.inThroughput [200, 900] ∧
      ((t.get? "a").getD {}).inThroughput = a.inThroughput := by
  have fits : Fits staggered := by decide
  have taken := ofRecords_of_fits fits
  have timedFits : Fits (staggered.filter Flow.inbound.isTimed) := fits.of_sublist List.filter_sublist
  have timed := ofRecords_of_fits timedFits
  obtain ⟨entries, ⟨all, b, shownAll, collected, aggregate⟩, same, -⟩ :=
    throughput_averages staggered _ _ taken .inbound
  obtain ⟨outbound, -⟩ := throughput_averages staggered _ _ taken .outbound
  have shownA : (described staggered).get? "a" =
      some (EndpointStats.ofRecords (Record.ofBucket "a" staggered)) := by
    rw [get?_described_of_ne (by decide), if_pos (by decide)]
  have buckets : (b.values.map Flow.inbound.gathered).filter (0 < ·.2) = [(601, 3), (900, 1)] := by
    have b_eq : b = bucketsOf staggered := (collect_eq_ok_iff.mp collected).2
    rw [b_eq]
    decide
  rw [buckets] at aggregate
  have kept := same _ _ _ timed (by decide) "a"
  rw [shownA] at kept
  exact ⟨_, _, _, _, _, all, taken, timed, shownA, shownAll, (entries "a" _ shownA).between (by decide),
    (outbound "a" _ shownA).none (by decide), aggregate.between (by decide), kept⟩

end Snapshot

end RequestMeter
