import RequestMeter.Proofs.Statistics.Guarded

/-! # Percentiles as order statistics

The percentile at a rank is the one sample that at least that share of the samples does not exceed while
less than that share is below it.  This says nothing of positions or of the order of the samples, and it
is what the element at the rounded up position of the sorted samples is.
-/
namespace RequestMeter

/-- The share of the samples up to `v` reaches the rank, and the share below `v` does not. -/
structure IsPercentile (samples : List Nat) (rank v : Nat) : Prop where
  mem : v ∈ samples
  reached : rank * samples.length ≤ fullRank * samples.countP (· ≤ v)
  unreached : fullRank * samples.countP (· < v) < rank * samples.length

namespace IsPercentile

variable {samples : List Nat} {rank v : Nat}

theorem perm {others : List Nat} (h : IsPercentile samples rank v) (p : samples.Perm others) :
    IsPercentile others rank v where
  mem := p.mem_iff.mp h.mem
  reached := by
    rw [← p.length_eq, ← p.countP_eq]
    exact h.reached
  unreached := by
    rw [← p.length_eq, ← p.countP_eq]
    exact h.unreached

/-- A higher rank has no smaller percentile: what is below the one is not above a smaller other. -/
theorem le_of_rank_le {rank' w : Nat} (hv : IsPercentile samples rank v)
    (hw : IsPercentile samples rank' w) (h : rank ≤ rank') : v ≤ w := by
  by_contra above
  have fewer : samples.countP (· ≤ w) ≤ samples.countP (· < v) := by
    apply List.countP_mono_left
    intro x _ hx
    simp only [decide_eq_true_eq] at hx ⊢
    omega
  have scaled : fullRank * samples.countP (· ≤ w) ≤ fullRank * samples.countP (· < v) :=
    Nat.mul_le_mul_left _ fewer
  have ranks : rank * samples.length ≤ rank' * samples.length := Nat.mul_le_mul_right _ h
  have reached := hw.reached
  have unreached := hv.unreached
  omega

theorem eq_of_isPercentile {w : Nat} (hv : IsPercentile samples rank v)
    (hw : IsPercentile samples rank w) : v = w :=
  Nat.le_antisymm (hv.le_of_rank_le hw (Nat.le_refl rank)) (hw.le_of_rank_le hv (Nat.le_refl rank))

/-- No sample is above a percentile when the samples are so few that all of them are needed to reach
its rank. -/
theorem le_of_mem (h : IsPercentile samples rank v)
    (few : fullRank * (samples.length - 1) < rank * samples.length) {x : Nat} (hx : x ∈ samples) :
    x ≤ v := by
  have all : samples.countP (· ≤ v) = samples.length := by
    have reached := h.reached
    have most : samples.countP (· ≤ v) ≤ samples.length := List.countP_le_length
    by_contra notAll
    have less : samples.countP (· ≤ v) ≤ samples.length - 1 := by omega
    have scaled : fullRank * samples.countP (· ≤ v) ≤ fullRank * (samples.length - 1) :=
      Nat.mul_le_mul_left _ less
    omega
  simpa using List.countP_eq_length.mp all x hx

end IsPercentile

/-! ## Positions in ascending order -/

/-- Of ascending numbers the one at an index has no more below it than come before it, and all these
and itself up to it. -/
theorem countP_of_ascending {xs : List Nat} (h : xs.Pairwise (· ≤ ·)) {i v : Nat}
    (hv : xs[i]? = some v) : xs.countP (· < v) ≤ i ∧ i < xs.countP (· ≤ v) := by
  induction xs generalizing i with
  | nil => cases hv
  | cons x xs ih =>
    obtain ⟨least, rest⟩ := List.pairwise_cons.mp h
    cases i with
    | zero =>
      obtain rfl : x = v := by simpa using hv
      have below : (x :: xs).countP (· < x) = 0 := by
        rw [List.countP_eq_zero]
        simpa using least
      exact ⟨Nat.le_of_eq below, by simp⟩
    | succ i =>
      rw [List.getElem?_cons_succ] at hv
      have small : x ≤ v := least v (List.mem_of_getElem? hv)
      obtain ⟨below, upTo⟩ := ih rest hv
      rw [List.countP_cons, List.countP_cons, if_pos (decide_eq_true small)]
      constructor
      · split <;> omega
      · omega

/-- The position of a rank is that share of the samples, rounded up; it is one of their positions
without being moved to one. -/
theorem rankPosition_eq {rank n : Nat} (hp : 0 < rank) (hr : rank ≤ fullRank) (hn : 0 < n) :
    let position := (rank * n + (fullRank - 1)) / fullRank
    rankPosition rank n = position ∧ 1 ≤ position ∧ position ≤ n := by
  intro position
  have some : 0 < rank * n := Nat.mul_pos hp hn
  have product : rank * n ≤ fullRank * n := Nat.mul_le_mul_right n hr
  have first : 1 ≤ position := by
    simp only [position, fullRank] at product ⊢
    omega
  refine ⟨Nat.max_eq_left first, first, ?_⟩
  simp only [position, fullRank] at product ⊢
  omega

theorem rankPosition_share {rank n : Nat} (hp : 0 < rank) (hr : rank ≤ fullRank) (hn : 0 < n) :
    rank * n ≤ fullRank * rankPosition rank n ∧
      fullRank * (rankPosition rank n - 1) < rank * n := by
  have some : 0 < rank * n := Nat.mul_pos hp hn
  rw [(rankPosition_eq hp hr hn).1]
  unfold fullRank
  omega

/-! ## What is read off sorted samples -/

theorem nearestRank_eq_empty_iff {xs : List Nat} {rank : Nat} :
    nearestRank xs rank = .error .empty ↔ xs = [] := by
  unfold nearestRank
  split
  · simp [*]
  · split <;> simp [*]

theorem nearestRank_eq_invalidRank_iff {xs : List Nat} {rank named : Nat} :
    nearestRank xs rank = .error (.invalidRank named) ↔
      xs ≠ [] ∧ (rank = 0 ∨ fullRank < rank) ∧ named = rank := by
  unfold nearestRank
  split
  · simp [*]
  · split <;> simp [*, eq_comm]

theorem nearestRank_eq_ok_iff {xs : List Nat} {rank v : Nat} :
    nearestRank xs rank = .ok v ↔
      (0 < rank ∧ rank ≤ fullRank) ∧ xs[rankPosition rank xs.length - 1]? = some v := by
  constructor
  · intro h
    have some : xs ≠ [] := by
      intro none
      rw [nearestRank_eq_empty_iff.mpr none] at h
      cases h
    have valid : 0 < rank ∧ rank ≤ fullRank := by
      by_contra outside
      rw [nearestRank_eq_invalidRank_iff.mpr ⟨some, by omega, rfl⟩] at h
      cases h
    obtain ⟨w, read, sample⟩ := exists_nearestRank some valid.1 valid.2
    rw [read] at h
    cases h
    exact ⟨valid, sample⟩
  · rintro ⟨⟨hp, hr⟩, sample⟩
    have some : xs ≠ [] := by
      rintro rfl
      cases sample
    obtain ⟨w, read, sample'⟩ := exists_nearestRank some hp hr
    rw [sample] at sample'
    cases sample'
    exact read

/-- What is read off ascending samples is their percentile. -/
theorem isPercentile_of_nearestRank {sorted : List Nat} (h : sorted.Pairwise (· ≤ ·)) {rank v : Nat}
    (hv : nearestRank sorted rank = .ok v) : IsPercentile sorted rank v := by
  obtain ⟨⟨hp, hr⟩, sample⟩ := nearestRank_eq_ok_iff.mp hv
  have mem := List.mem_of_getElem? sample
  obtain ⟨reached, unreached⟩ := rankPosition_share hp hr (List.length_pos_of_mem mem)
  obtain ⟨below, upTo⟩ := countP_of_ascending h sample
  have pos := rankPosition_pos rank sorted.length
  refine ⟨mem, Nat.le_trans reached (Nat.mul_le_mul_left _ (by omega)), ?_⟩
  exact Nat.lt_of_le_of_lt (Nat.mul_le_mul_left _ below) unreached

namespace Ladder

/-- Every step of the ladder is the percentile at its rank. -/
structure Describes (l : Ladder) (samples : List Nat) : Prop where
  p50 : IsPercentile samples 5000 l.p50
  p90 : IsPercentile samples 9000 l.p90
  p95 : IsPercentile samples 9500 l.p95
  p99 : IsPercentile samples 9900 l.p99
  p999 : IsPercentile samples 9990 l.p999
  p9999 : IsPercentile samples 9999 l.p9999

theorem ofSamples_eq_ok_iff {samples : List Nat} {l : Ladder} :
    ofSamples samples = .ok l ↔
      nearestRank (sort samples) 5000 = .ok l.p50 ∧ nearestRank (sort samples) 9000 = .ok l.p90 ∧
      nearestRank (sort samples) 9500 = .ok l.p95 ∧ nearestRank (sort samples) 9900 = .ok l.p99 ∧
      nearestRank (sort samples) 9990 = .ok l.p999 ∧ nearestRank (sort samples) 9999 = .ok l.p9999 := by
  simp only [ofSamples, ofSorted, bind_eq_ok_iff, pure_eq_ok_iff]
  constructor
  · rintro ⟨p50, h50, p90, h90, p95, h95, p99, h99, p999, h999, p9999, h9999, rfl⟩
    exact ⟨h50, h90, h95, h99, h999, h9999⟩
  · rintro ⟨h50, h90, h95, h99, h999, h9999⟩
    exact ⟨_, h50, _, h90, _, h95, _, h99, _, h999, _, h9999, rfl⟩

theorem isPercentile_sort {samples : List Nat} {rank v : Nat}
    (h : nearestRank (sort samples) rank = .ok v) : IsPercentile samples rank v :=
  (isPercentile_of_nearestRank (sort_ascending samples) h).perm (sort_perm samples)

/-- Every valid rank can be read off, on machine numbers too, and what is there is the percentile. -/
theorem exists_isPercentile {samples : List Nat} {rank : Nat} (nonempty : samples ≠ [])
    (few : fullRank * samples.length ≤ maxCount) (hp : 0 < rank) (hr : rank ≤ fullRank) :
    ∃ v, nearestRank (sort samples) rank = .ok v ∧
      Guarded.nearestRank (sort samples) rank = .ok (.ok v) ∧
      (sort samples)[rankPosition rank samples.length - 1]? = some v ∧
      IsPercentile samples rank v := by
  obtain ⟨v, read, sample⟩ := exists_nearestRank (sort_ne_nil nonempty) hp hr
  refine ⟨v, read, ?_, ?_, isPercentile_sort read⟩
  · rw [Guarded.nearestRank_eq (by rwa [length_sort]), read]
  · rwa [length_sort] at sample

theorem describes_of_ofSamples {samples : List Nat} {l : Ladder} (h : ofSamples samples = .ok l) :
    l.Describes samples := by
  obtain ⟨p50, p90, p95, p99, p999, p9999⟩ := ofSamples_eq_ok_iff.mp h
  exact ⟨isPercentile_sort p50, isPercentile_sort p90, isPercentile_sort p95, isPercentile_sort p99,
    isPercentile_sort p999, isPercentile_sort p9999⟩

theorem Describes.ascending {samples : List Nat} {l : Ladder} (h : l.Describes samples) :
    l.p50 ≤ l.p90 ∧ l.p90 ≤ l.p95 ∧ l.p95 ≤ l.p99 ∧ l.p99 ≤ l.p999 ∧ l.p999 ≤ l.p9999 :=
  ⟨h.p50.le_of_rank_le h.p90 (by decide), h.p90.le_of_rank_le h.p95 (by decide),
    h.p95.le_of_rank_le h.p99 (by decide), h.p99.le_of_rank_le h.p999 (by decide),
    h.p999.le_of_rank_le h.p9999 (by decide)⟩

end Ladder

/-! ## Exactness -/

/-- Reading a rank off any list fails exactly for want of samples or of a valid rank.  Off sorted
samples whose ten thousandfold number is a 64-bit count it gives the one sample that has this share
of the samples up to itself and less below itself.  That holds on machine numbers: the position is
not moved by its bounds and is one of a sample.  Higher ranks give no smaller samples, and the full
rank gives the largest.  The ladder is read off in this way, whatever the order of the samples, and
does not descend; the samples are left sorted. -/
theorem nearestRank_exact :
    (∀ (xs : List Nat) (rank : Nat),
      (nearestRank xs rank = .error .empty ↔ xs = []) ∧
      ∀ named, nearestRank xs rank = .error (.invalidRank named) ↔
        xs ≠ [] ∧ (rank = 0 ∨ 10000 < rank) ∧ named = rank) ∧
    ∀ samples : List Nat, samples ≠ [] → 10000 * samples.length < UInt64.size →
      let sorted := Ladder.sort samples
      sorted.Perm samples ∧ sorted.Pairwise (· ≤ ·) ∧
      (∀ rank, 1 ≤ rank → rank ≤ 10000 →
        let position := (rank * samples.length + 9999) / 10000
        max position 1 = position ∧ min position samples.length = position ∧
        ∃ v, nearestRank sorted rank = .ok v ∧ Guarded.nearestRank sorted rank = .ok (.ok v) ∧
          sorted[position - 1]? = some v ∧
          (∀ w, w ∈ samples ∧ rank * samples.length ≤ 10000 * samples.countP (· ≤ w) ∧
            10000 * samples.countP (· < w) < rank * samples.length ↔ w = v) ∧
          (∀ rank' v', nearestRank sorted rank' = .ok v' → rank ≤ rank' → v ≤ v') ∧
          (rank = 10000 → ∀ x ∈ samples, x ≤ v)) ∧
      (∃ l, Ladder.ofSamples samples = .ok l ∧ Guarded.ladder samples = .ok (.ok l) ∧
        nearestRank sorted 5000 = .ok l.p50 ∧ nearestRank sorted 9000 = .ok l.p90 ∧
        nearestRank sorted 9500 = .ok l.p95 ∧ nearestRank sorted 9900 = .ok l.p99 ∧
        nearestRank sorted 9990 = .ok l.p999 ∧ nearestRank sorted 9999 = .ok l.p9999 ∧
        l.p50 ≤ l.p90 ∧ l.p90 ≤ l.p95 ∧ l.p95 ≤ l.p99 ∧ l.p99 ≤ l.p999 ∧ l.p999 ≤ l.p9999) ∧
      ∀ others : List Nat, others.Perm samples → Ladder.ofSamples others = Ladder.ofSamples samples := by
  refine ⟨fun xs rank => ⟨nearestRank_eq_empty_iff, fun named => nearestRank_eq_invalidRank_iff⟩,
    fun samples some few => ?_⟩
  intro sorted
  have number : 0 < samples.length := List.length_pos_iff.mpr some
  have few : fullRank * samples.length ≤ maxCount := Nat.le_sub_one_of_lt few
  refine ⟨Ladder.sort_perm samples, Ladder.sort_ascending samples, ?_, ?_, fun others same =>
    Ladder.ofSamples_perm same⟩
  · intro rank hp hr position
    obtain ⟨here, first, last⟩ := rankPosition_eq hp hr number
    obtain ⟨v, read, guarded, sample, percentile⟩ := Ladder.exists_isPercentile some few hp hr
    rw [here] at sample
    refine ⟨Nat.max_eq_left first, Nat.min_eq_left last, v, read, guarded, sample, fun w => ?_, ?_, ?_⟩
    · constructor
      · rintro ⟨mem, reached, unreached⟩
        exact IsPercentile.eq_of_isPercentile ⟨mem, reached, unreached⟩ percentile
      · rintro rfl
        exact ⟨percentile.mem, percentile.reached, percentile.unreached⟩
    · intro rank' v' read' higher
      exact percentile.le_of_rank_le (Ladder.isPercentile_sort read') higher
    · rintro rfl x hx
      exact percentile.le_of_mem (Nat.mul_lt_mul_of_pos_left (by omega) (by decide)) hx
  · obtain ⟨l, ladder⟩ := Ladder.exists_ofSamples some
    obtain ⟨p50, p90, p95, p99, p999, p9999⟩ := Ladder.ofSamples_eq_ok_iff.mp ladder
    refine ⟨l, ladder, ?_, p50, p90, p95, p99, p999, p9999, ?_⟩
    · rw [Guarded.ladder_eq few, ladder]
    · exact (Ladder.describes_of_ofSamples ladder).ascending

/-- Ten samples in no order, some of them equal. -/
def tied : List Nat := [7, 3, 9, 3, 40, 1, 3, 8, 12, 9]

/-- Nine tenths of ten samples are nine of them; the least bit more is all of them. -/
theorem nearestRank_exact_tied :
    tied ≠ [] ∧ 10000 * tied.length < UInt64.size ∧
    nearestRank (Ladder.sort tied) 3000 = .ok 3 ∧ nearestRank (Ladder.sort tied) 9000 = .ok 12 ∧
    nearestRank (Ladder.sort tied) 9001 = .ok 40 ∧
    nearestRank tied 10001 = .error (.invalidRank 10001) ∧
    ∃ l, Ladder.ofSamples tied = .ok l ∧ l.p90 = 12 ∧ l.p90 ≤ l.p95 := by
  obtain ⟨errors, lists⟩ := nearestRank_exact
  have some : tied ≠ [] := by decide
  have few : 10000 * tied.length < UInt64.size := by decide
  obtain ⟨-, -, ranks, ⟨l, ladder, -, -, p90, -, -, -, -, -, step, -⟩, -⟩ := lists tied some few
  have read (rank w : Nat) (hp : 1 ≤ rank) (hr : rank ≤ 10000)
      (h : w ∈ tied ∧ rank * tied.length ≤ 10000 * tied.countP (· ≤ w) ∧
        10000 * tied.countP (· < w) < rank * tied.length) :
      nearestRank (Ladder.sort tied) rank = .ok w := by
    obtain ⟨-, -, v, hv, -, -, unique, -⟩ := ranks rank hp hr
    rw [(unique w).mp h, hv]
  have ninety := read 9000 12 (by decide) (by decide) (by decide)
  have twelve : l.p90 = 12 := Except.ok.inj (p90.symm.trans ninety)
  exact ⟨some, few, read 3000 3 (by decide) (by decide) (by decide), ninety,
    read 9001 40 (by decide) (by decide) (by decide),
    ((errors tied 10001).2 10001).mpr ⟨some, .inr (by decide), rfl⟩, l, ladder, twelve, step⟩

end RequestMeter
