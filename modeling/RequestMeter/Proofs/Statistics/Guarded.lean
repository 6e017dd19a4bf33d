import RequestMeter.Proofs.Binary64
import RequestMeter.Proofs.Statistics.Snapshot

/-! # Statistics on machine numbers

Finishing an accumulator multiplies, subtracts and divides, and reads a sample at a computed index.
Here each of these operations is guarded: it stops where a machine with 64-bit counts would.  Nothing
stops as long as ten thousand times the number of samples is a 64-bit count, and what comes out is what
exact numbers give.  Every accumulator on the way to a snapshot has as many samples as it counts, and
counts no more than there are records, so each of them can be finished in this way.
-/
namespace RequestMeter

/-- What stops a computation on 64-bit counts. -/
inductive Fault where
  /-- A product is no 64-bit count. -/
  | tooLarge
  | belowZero
  | zeroDivisor
  | outOfRange
  deriving DecidableEq, Repr

namespace Guarded

/-! ## Operations -/

def mul (x y : Nat) : Except Fault Nat :=
  if x * y ≤ maxCount then .ok (x * y) else .error .tooLarge

def sub (x y : Nat) : Except Fault Nat := if y ≤ x then .ok (x - y) else .error .belowZero

def div (x y : Nat) : Except Fault Nat := if y = 0 then .error .zeroDivisor else .ok (x / y)

/-- The quotient rounded up, by the remainder. -/
def ceilDiv (x y : Nat) : Except Fault Nat :=
  if y = 0 then .error .zeroDivisor else .ok (if x % y = 0 then x / y else x / y + 1)

def divReal (x y : Binary64) : Except Fault Binary64 :=
  if y = .zero then .error .zeroDivisor else .ok (x.div y)

def get (xs : List Nat) (i : Nat) : Except Fault Nat :=
  match xs[i]? with
  | some x => .ok x
  | none => .error .outOfRange

theorem ok_bind {α β : Type} (x : α) (f : α → Except Fault β) : Except.ok x >>= f = f x := rfl

theorem mul_of_le {x y : Nat} (h : x * y ≤ maxCount) : mul x y = .ok (x * y) := if_pos h

theorem sub_of_le {x y : Nat} (h : y ≤ x) : sub x y = .ok (x - y) := if_pos h

theorem div_of_ne {x y : Nat} (h : y ≠ 0) : div x y = .ok (x / y) := if_neg h

theorem divReal_of_ne {x y : Binary64} (h : y ≠ .zero) : divReal x y = .ok (x.div y) := if_neg h

theorem ceilDiv_fullRank (x : Nat) : ceilDiv x fullRank = .ok ((x + (fullRank - 1)) / fullRank) := by
  unfold ceilDiv fullRank
  rw [if_neg (by decide)]
  congr 1
  split <;> omega

theorem get_of_lt {xs : List Nat} {i : Nat} (h : i < xs.length) : get xs i = .ok (xs.getD i 0) := by
  rw [get, List.getD_eq_getElem?_getD, List.getElem?_eq_getElem h]
  rfl

/-! ## Percentiles -/

/-- The index of a rank among `n` samples in ascending order. -/
def rankIndex (rank n : Nat) : Except Fault Nat := do
  let product ← mul rank n
  let quotient ← ceilDiv product fullRank
  sub (min (max quotient 1) n) 1

/-- The index of a rank is computed without a stop and is one of a sample. -/
theorem rankIndex_eq {rank n : Nat} (hr : rank ≤ fullRank) (hn : 0 < n)
    (h : fullRank * n ≤ maxCount) :
    rankIndex rank n = .ok (min (rankPosition rank n) n - 1) ∧
      min (rankPosition rank n) n - 1 < n := by
  have product : rank * n ≤ maxCount := Nat.le_trans (Nat.mul_le_mul_right n hr) h
  have position : 1 ≤ min (rankPosition rank n) n := Nat.le_min.mpr ⟨rankPosition_pos rank n, hn⟩
  constructor
  · rw [rankIndex, mul_of_le product, ok_bind, ceilDiv_fullRank, ok_bind]
    exact sub_of_le position
  · exact Nat.lt_of_lt_of_le (Nat.sub_lt position Nat.one_pos) (Nat.min_le_right _ _)

def nearestRank (sorted : List Nat) (rank : Nat) : Except Fault (Except PercentileError Nat) :=
  if sorted = [] then .ok (.error .empty)
  else if rank = 0 ∨ fullRank < rank then .ok (.error (.invalidRank rank))
  else do
    let index ← rankIndex rank sorted.length
    let sample ← get sorted index
    return .ok sample

theorem nearestRank_eq {sorted : List Nat} (h : fullRank * sorted.length ≤ maxCount) (rank : Nat) :
    nearestRank sorted rank = .ok (RequestMeter.nearestRank sorted rank) := by
  unfold nearestRank RequestMeter.nearestRank
  by_cases none : sorted = []
  · rw [if_pos none, if_pos none]
  · rw [if_neg none, if_neg none]
    by_cases outside : rank = 0 ∨ fullRank < rank
    · rw [if_pos outside, if_pos outside]
    · rw [if_neg outside, if_neg outside]
      rw [not_or, Nat.not_lt] at outside
      obtain ⟨index, inside⟩ := rankIndex_eq outside.2 (List.length_pos_iff.mpr none) h
      rw [index, ok_bind, get_of_lt inside]
      rfl

def ladder (samples : List Nat) : Except Fault (Except PercentileError Ladder) := do
  let sorted := Ladder.sort samples
  let p50 ← nearestRank sorted 5000
  let p90 ← nearestRank sorted 9000
  let p95 ← nearestRank sorted 9500
  let p99 ← nearestRank sorted 9900
  let p999 ← nearestRank sorted 9990
  let p9999 ← nearestRank sorted 9999
  return do return {
    p50 := ← p50
    p90 := ← p90
    p95 := ← p95
    p99 := ← p99
    p999 := ← p999
    p9999 := ← p9999 }

theorem ladder_eq {samples : List Nat} (h : fullRank * samples.length ≤ maxCount) :
    ladder samples = .ok (Ladder.ofSamples samples) := by
  have sorted : fullRank * (Ladder.sort samples).length ≤ maxCount := by rwa [Ladder.length_sort]
  unfold ladder
  simp only [nearestRank_eq sorted]
  rfl

/-! ## Quotients -/

def mean (sum count : Nat) : Except Fault Binary64 :=
  if count = 0 then .ok .zero else divReal (Binary64.ofNat sum) (Binary64.ofNat count)

theorem mean_eq (sum count : Nat) : mean sum count = .ok (Accumulator.mean sum count) := by
  unfold mean Accumulator.mean
  split
  · rfl
  · exact divReal_of_ne (Binary64.ofNat_ne_zero ‹_›)

def perSecond (bytes secs : Nat) : Except Fault Nat := if secs = 0 then .ok 0 else div bytes secs

theorem perSecond_eq (bytes secs : Nat) :
    perSecond bytes secs = .ok (Accumulator.perSecond bytes secs) := by
  unfold perSecond Accumulator.perSecond
  split
  · rfl
  · exact div_of_ne ‹_›

/-! ## Statistics -/

def finish (a : Accumulator) (endpoint : String) :
    Except Fault (Except MeterError EndpointStats) := do
  let percentiles ← if a.count = 0 then pure (.ok {}) else ladder a.samples
  let avgMs ← mean a.sum a.count
  let ttfbAvgMs ← mean a.ttfbSum a.ttfbCount
  let inThroughput ← perSecond a.inBytes a.inSecs
  let outThroughput ← perSecond a.outBytes a.outSecs
  return (percentiles.mapError (.percentile endpoint)).map fun percentiles => {
    count := a.count
    sumMs := a.sum
    minMs := a.low
    maxMs := a.high
    avgMs
    percentiles
    errors := a.errors
    partials := a.partials
    ttfbAvgMs
    inThroughput
    outThroughput
    prevRoutes := a.prevRoutes.keys }

/-- Nothing stops, and the statistics are those of exact numbers. -/
theorem finish_eq {a : Accumulator} (h : fullRank * a.samples.length ≤ maxCount) (endpoint : String) :
    finish a endpoint = .ok (a.finish endpoint) := by
  unfold finish Accumulator.finish
  simp only [ladder_eq h, mean_eq, perSecond_eq]
  by_cases none : a.count = 0
  · rw [if_pos none, if_pos none]
    rfl
  · rw [if_neg none, if_neg none]
    cases Ladder.ofSamples a.samples <;> rfl

end Guarded

/-! ## Accumulators on the way to a snapshot -/

/-- The accumulators that come up for some records: those of the buckets after each record, and that
of the aggregate after each merge. -/
inductive Snapshot.Arises (rs : List Record) : Accumulator → Prop where
  | bucket {qs : List Record} {b : Buckets} {k : String} {a : Accumulator} :
      qs <+: rs → collect qs = .ok b → b.get? k = some a → Arises rs a
  | aggregate {b : Buckets} {parts : List Accumulator} {a : Accumulator} :
      collect rs = .ok b → parts <+: b.values → parts.foldlM Accumulator.merge {} = .ok a →
      Arises rs a

/-- An accumulator on the way has gathered some of the records. -/
theorem Snapshot.Arises.gathered {rs : List Record} {a : Accumulator} (h : Arises rs a) :
    ∃ qs, qs.Subperm rs ∧ a = Accumulator.ofRecords qs := by
  cases h with
  | @bucket qs b k a initial collected found =>
    obtain ⟨-, rfl⟩ := collect_eq_ok_iff.mp collected
    have bucket := getD_get?_bucketsOf qs k
    rw [found, Option.getD_some] at bucket
    exact ⟨_, (List.filter_sublist.trans initial.sublist).subperm, bucket⟩
  | @aggregate b parts a collected initial merged =>
    obtain ⟨-, rfl⟩ := collect_eq_ok_iff.mp collected
    rw [values_bucketsOf, List.prefix_map_iff] at initial
    obtain ⟨groups, initial, rfl⟩ := initial
    obtain ⟨-, rfl⟩ := (Accumulator.foldlM_merge_ofRecords fits_nil).mp merged
    have part : groups.flatten.Sublist (regrouped rs) := by
      rw [regrouped, List.flatMap_def]
      exact initial.flatten.sublist
    exact ⟨_, part.subperm.trans (regrouped_perm rs).subperm, rfl⟩

/-- An accumulator has a sample for each latency it counts, and counts nothing more often than there
are records. -/
structure Accumulator.Bounded (a : Accumulator) (n : Nat) : Prop where
  samples : a.samples.length = a.count
  records : a.count + a.partials ≤ n
  errors : a.errors ≤ n
  firstBytes : a.ttfbCount ≤ n

theorem Accumulator.bounded_ofRecords (rs : List Record) : (ofRecords rs).Bounded rs.length where
  samples := List.length_reverse
  records := Nat.le_of_eq (EndpointStats.count_add_partials rs)
  errors := List.countP_le_length
  firstBytes := List.length_filterMap_le _ _

theorem Accumulator.Bounded.mono {a : Accumulator} {m n : Nat} (h : a.Bounded m) (hmn : m ≤ n) :
    a.Bounded n where
  samples := h.samples
  records := Nat.le_trans h.records hmn
  errors := Nat.le_trans h.errors hmn
  firstBytes := Nat.le_trans h.firstBytes hmn

/-- An accumulator on the way is bounded by the records, and can be finished without a stop. -/
theorem Snapshot.Arises.finish {rs : List Record} {a : Accumulator} (h : Arises rs a)
    (hn : 10000 * rs.length < UInt64.size) :
    a.Bounded rs.length ∧
      ∀ k, ∃ st, a.finish k = .ok st ∧ Guarded.finish a k = .ok (.ok st) := by
  obtain ⟨qs, part, rfl⟩ := h.gathered
  have bounded := (Accumulator.bounded_ofRecords qs).mono part.length_le
  have few : fullRank * (Accumulator.ofRecords qs).samples.length ≤ maxCount := by
    have count := Nat.le_trans (Nat.le_add_right _ _) bounded.records
    rw [bounded.samples]
    unfold fullRank maxCount
    omega
  refine ⟨bounded, fun k => ⟨EndpointStats.ofRecords qs, Accumulator.finish_ofRecords qs k, ?_⟩⟩
  rw [Guarded.finish_eq few, Accumulator.finish_ofRecords]

end RequestMeter
