import RequestMeter.Percentile
import Mathlib.Data.List.Sort

/-! # Percentiles of samples

A ladder reads its samples in ascending order, at positions that are always there.  So it exists for
any samples at all, and does not depend on the order in which they came.
-/
namespace RequestMeter

/-! ## Positions -/

theorem rankPosition_pos (rank n : Nat) : 0 < rankPosition rank n :=
  Nat.lt_of_lt_of_le Nat.one_pos (Nat.le_max_right _ _)

theorem rankPosition_le {rank n : Nat} (hr : rank ≤ fullRank) (hn : 0 < n) :
    rankPosition rank n ≤ n := by
  have product : rank * n ≤ fullRank * n := Nat.mul_le_mul_right n hr
  unfold rankPosition
  unfold fullRank at product ⊢
  omega

/-- The percentile at a rank is the sample at its position. -/
theorem exists_nearestRank {sorted : List Nat} {rank : Nat} (hs : sorted ≠ []) (hp : 0 < rank)
    (hr : rank ≤ fullRank) :
    ∃ v, nearestRank sorted rank = .ok v ∧
      sorted[rankPosition rank sorted.length - 1]? = some v := by
  have position := rankPosition_le hr (List.length_pos_iff.mpr hs)
  have inside : rankPosition rank sorted.length - 1 < sorted.length :=
    Nat.lt_of_lt_of_le (Nat.sub_lt (rankPosition_pos rank sorted.length) Nat.one_pos) position
  rw [nearestRank, if_neg hs, if_neg (by omega), Nat.min_eq_left position,
    List.getD_eq_getElem?_getD, List.getElem?_eq_getElem inside]
  exact ⟨_, rfl, rfl⟩

/-! ## Ladders -/

namespace Ladder

theorem sort_perm (samples : List Nat) : (sort samples).Perm samples :=
  List.mergeSort_perm samples _

theorem length_sort (samples : List Nat) : (sort samples).length = samples.length :=
  (sort_perm samples).length_eq

theorem sort_ne_nil {samples : List Nat} (h : samples ≠ []) : sort samples ≠ [] := by
  apply List.ne_nil_of_length_pos
  rw [length_sort]
  exact List.length_pos_iff.mpr h

theorem sort_ascending (samples : List Nat) : (sort samples).Pairwise (· ≤ ·) :=
  List.pairwise_mergeSort' _ samples

theorem sort_eq_of_perm {xs ys : List Nat} (h : xs.Perm ys) : sort xs = sort ys := by
  have perm : (sort xs).Perm (sort ys) := (sort_perm xs).trans (h.trans (sort_perm ys).symm)
  exact perm.eq_of_pairwise (fun _ _ _ _ => Nat.le_antisymm) (sort_ascending xs) (sort_ascending ys)

theorem ofSamples_perm {xs ys : List Nat} (h : xs.Perm ys) : ofSamples xs = ofSamples ys := by
  rw [ofSamples, ofSamples, sort_eq_of_perm h]

theorem ofSamples_nil : ofSamples [] = .error .empty := by
  rw [ofSamples, sort, List.mergeSort_nil]
  rfl

theorem exists_ofSamples {samples : List Nat} (h : samples ≠ []) :
    ∃ l, ofSamples samples = .ok l := by
  have known (rank : Nat) (hp : 0 < rank) (hr : rank ≤ fullRank) :=
    exists_nearestRank (sort_ne_nil h) hp hr
  rcases known 5000 (by decide) (by decide) with ⟨p50, h50, -⟩
  rcases known 9000 (by decide) (by decide) with ⟨p90, h90, -⟩
  rcases known 9500 (by decide) (by decide) with ⟨p95, h95, -⟩
  rcases known 9900 (by decide) (by decide) with ⟨p99, h99, -⟩
  rcases known 9990 (by decide) (by decide) with ⟨p999, h999, -⟩
  rcases known 9999 (by decide) (by decide) with ⟨p9999, h9999, -⟩
  refine ⟨⟨p50, p90, p95, p99, p999, p9999⟩, ?_⟩
  rw [ofSamples, ofSorted, h50, h90, h95, h99, h999, h9999]
  rfl

end Ladder

end RequestMeter
