import RequestMeter.Statistics.Accumulator
import Mathlib.Algebra.GroupWithZero.Nat
import Mathlib.Algebra.Order.BigOperators.Group.List
import Mathlib.Algebra.Order.Group.Nat

/-! # Measures of records

Statistics add up six measures of the records, each over the records that have it.  A sum fits when it
is a 64-bit count.  Neither the sums nor whether they fit depends on the order of the records.
-/
namespace RequestMeter

/-- What is added up over records. -/
inductive Measure where
  | latency
  | firstByte
  | inBytes
  | inSecs
  | outBytes
  | outSecs
  deriving DecidableEq, Repr

namespace Measure

/-- The measure of a record, if it has one.  Bytes and seconds are those of windows of at least one
second. -/
def of? : Measure → Record → Option Nat
  | latency, r => r.latency
  | firstByte, r => r.timeToFirstByte
  | inBytes, r => (Accumulator.wholeWindow r.inWindow).map fun _ => r.inBytes
  | inSecs, r => Accumulator.wholeWindow r.inWindow
  | outBytes, r => (Accumulator.wholeWindow r.outWindow).map fun _ => r.outBytes
  | outSecs, r => Accumulator.wholeWindow r.outWindow

def values (m : Measure) (rs : List Record) : List Nat := rs.filterMap m.of?

def total (m : Measure) (rs : List Record) : Nat := (m.values rs).sum

variable (m : Measure)

@[simp] theorem values_nil : m.values [] = [] := rfl

theorem values_append (rs qs : List Record) : m.values (rs ++ qs) = m.values rs ++ m.values qs :=
  List.filterMap_append

theorem values_concat (rs : List Record) (r : Record) :
    m.values (rs ++ [r]) = m.values rs ++ (m.of? r).toList := by
  rw [values_append]
  cases h : m.of? r <;> simp [values, h]

theorem values_perm {rs qs : List Record} (h : rs.Perm qs) : (m.values rs).Perm (m.values qs) :=
  h.filterMap _

theorem total_append (rs qs : List Record) : m.total (rs ++ qs) = m.total rs + m.total qs := by
  rw [total, values_append, List.sum_append_nat]
  rfl

theorem total_concat (rs : List Record) (r : Record) :
    m.total (rs ++ [r]) = m.total rs + (m.of? r).getD 0 := by
  rw [total, values_concat, List.sum_append_nat]
  cases m.of? r <;> rfl

theorem total_perm {rs qs : List Record} (h : rs.Perm qs) : m.total rs = m.total qs :=
  (m.values_perm h).sum_nat

/-- A part of the records has no larger sum. -/
theorem total_le_of_sublist {rs qs : List Record} (h : rs.Sublist qs) : m.total rs ≤ m.total qs :=
  List.Sublist.sum_le_sum (h.filterMap _) fun _ _ => Nat.zero_le _

end Measure

/-! ## Sums that fit -/

/-- Every sum over the records is a 64-bit count. -/
def Fits (rs : List Record) : Prop := ∀ m : Measure, m.total rs ≤ maxCount

theorem fits_nil : Fits [] := fun _ => Nat.zero_le _

theorem fits_perm {rs qs : List Record} (h : rs.Perm qs) : Fits rs ↔ Fits qs := by
  unfold Fits
  simp only [Measure.total_perm _ h]

theorem Fits.of_sublist {rs qs : List Record} (h : Fits qs) (hs : rs.Sublist qs) : Fits rs :=
  fun m => Nat.le_trans (m.total_le_of_sublist hs) (h m)

theorem fits_iff {rs : List Record} :
    Fits rs ↔ Measure.latency.total rs ≤ maxCount ∧ Measure.firstByte.total rs ≤ maxCount ∧
      (Measure.inBytes.total rs ≤ maxCount ∧ Measure.inSecs.total rs ≤ maxCount) ∧
      Measure.outBytes.total rs ≤ maxCount ∧ Measure.outSecs.total rs ≤ maxCount := by
  constructor
  · intro h
    exact ⟨h _, h _, ⟨h _, h _⟩, h _, h _⟩
  · rintro ⟨latency, firstByte, ⟨inBytes, inSecs⟩, outBytes, outSecs⟩ m
    cases m <;> assumption

instance (rs : List Record) : Decidable (Fits rs) := decidable_of_iff' _ fits_iff

theorem not_fits_iff {rs : List Record} : ¬ Fits rs ↔ ∃ m : Measure, maxCount < m.total rs := by
  simp only [Fits, not_forall, Nat.not_le]

end RequestMeter
