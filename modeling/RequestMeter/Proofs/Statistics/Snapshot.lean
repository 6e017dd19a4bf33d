import RequestMeter.Statistics.Snapshot
import RequestMeter.Proofs.Statistics.Endpoint

/-! # Statistics by endpoint and altogether

A snapshot puts records into buckets and merges the buckets in the order of their names.  Each bucket
gathers the records of its endpoint, and all buckets together gather a rearrangement of all records.  So
a snapshot is taken exactly when the sums over all records fit, and its statistics are those of the
lists of records.
-/
namespace RequestMeter

def Record.ofBucket (k : String) (rs : List Record) : List Record := rs.filter (·.bucket = k)

theorem Record.ofBucket_concat (k : String) (rs : List Record) (r : Record) :
    ofBucket k (rs ++ [r]) = if r.bucket = k then ofBucket k rs ++ [r] else ofBucket k rs := by
  rw [ofBucket, List.filter_append]
  by_cases h : r.bucket = k <;> simp [h, ofBucket]

theorem Record.ofBucket_eq_nil_iff {k : String} {rs : List Record} :
    ofBucket k rs = [] ↔ k ∉ rs.map bucket := by
  simp [ofBucket]

theorem Record.ofBucket_perm (k : String) {rs qs : List Record} (h : rs.Perm qs) :
    (ofBucket k rs).Perm (ofBucket k qs) := h.filter _

/-- The records of different names, one name after the other, are the records of all these names. -/
theorem Record.flatMap_ofBucket_perm {ks : List String} (rs : List Record) (h : ks.Nodup) :
    (ks.flatMap (ofBucket · rs)).Perm (rs.filter (·.bucket ∈ ks)) := by
  induction ks with
  | nil => simp
  | cons k ks ih =>
    rw [List.nodup_cons] at h
    have here : ofBucket k rs = (rs.filter (·.bucket ∈ k :: ks)).filter (·.bucket = k) := by
      rw [ofBucket, List.filter_filter]
      apply List.filter_congr
      intro r _
      by_cases hr : r.bucket = k <;> simp [hr]
    have there : rs.filter (·.bucket ∈ ks) =
        (rs.filter (·.bucket ∈ k :: ks)).filter (fun r => !decide (r.bucket = k)) := by
      rw [List.filter_filter]
      apply List.filter_congr
      intro r _
      by_cases hr : r.bucket = k
      · simp [hr, h.1]
      · simp [hr]
    rw [List.flatMap_cons, here]
    apply ((ih h.2).append_left _).trans
    rw [there]
    exact List.filter_append_perm _ _

namespace Snapshot

/-! ## Buckets -/

/-- The buckets of some records when every sum fits. -/
def bucketsOf (rs : List Record) : Buckets :=
  Table.tabulate (fun k => Accumulator.ofRecords (Record.ofBucket k rs)) (rs.map Record.bucket)

theorem getD_get?_bucketsOf (rs : List Record) (k : String) :
    ((bucketsOf rs).get? k).getD {} = Accumulator.ofRecords (Record.ofBucket k rs) := by
  rw [bucketsOf, Table.get?_tabulate]
  split
  · rfl
  · rename_i h
    rw [Record.ofBucket_eq_nil_iff.mpr h]
    rfl

theorem insert_bucketsOf (rs : List Record) (r : Record) :
    (bucketsOf rs).insert r.bucket
        (Accumulator.ofRecords (Record.ofBucket r.bucket rs ++ [r])) = bucketsOf (rs ++ [r]) := by
  ext k : 1
  rw [Table.get?_insert, bucketsOf, bucketsOf, Table.get?_tabulate, Table.get?_tabulate,
    Record.ofBucket_concat, List.map_append]
  by_cases h : k = r.bucket
  · subst h
    simp
  · simp [h, Ne.symm h]

/-- A record can be put into its bucket as long as the sums over the bucket fit. -/
theorem addRecord_bucketsOf {rs : List Record} {r : Record} {b : Buckets}
    (h : Fits (Record.ofBucket r.bucket rs)) :
    addRecord (bucketsOf rs) r = .ok b ↔
      Fits (Record.ofBucket r.bucket (rs ++ [r])) ∧ b = bucketsOf (rs ++ [r]) := by
  rw [addRecord, getD_get?_bucketsOf, bind_eq_ok_iff, ← insert_bucketsOf, Record.ofBucket_concat,
    if_pos rfl]
  constructor
  · rintro ⟨a, ha, hb⟩
    obtain ⟨fits, rfl⟩ := (Accumulator.add_ofRecords h).mp ha
    exact ⟨fits, pure_eq_ok_iff.mp hb⟩
  · rintro ⟨fits, rfl⟩
    exact ⟨_, (Accumulator.add_ofRecords h).mpr ⟨fits, rfl⟩, rfl⟩

theorem forall_fits_concat {rs : List Record} {r : Record} :
    (∀ k, Fits (Record.ofBucket k (rs ++ [r]))) ↔
      (∀ k, Fits (Record.ofBucket k rs)) ∧ Fits (Record.ofBucket r.bucket (rs ++ [r])) := by
  constructor
  · intro h
    exact ⟨fun k => (h k).of_sublist ((List.sublist_append_left rs [r]).filter _), h _⟩
  · rintro ⟨before, more⟩ k
    by_cases hk : r.bucket = k
    · exact hk ▸ more
    · rw [Record.ofBucket_concat, if_neg hk]
      exact before k

/-- Records can be put into buckets as long as the sums over each bucket fit. -/
theorem collect_eq_ok_iff {rs : List Record} {b : Buckets} :
    collect rs = .ok b ↔ (∀ k, Fits (Record.ofBucket k rs)) ∧ b = bucketsOf rs := by
  induction rs using List.reverseRecOn generalizing b with
  | nil =>
    exact ok_eq_ok_iff_and fun _ => fits_nil
  | append_singleton rs r ih =>
    have last : collect (rs ++ [r]) = collect rs >>= fun d => addRecord d r := by
      rw [collect, List.foldlM_append]
      simp only [List.foldlM_cons, List.foldlM_nil, bind_pure]
      rfl
    rw [last, bind_eq_ok_iff, forall_fits_concat]
    constructor
    · rintro ⟨d, hd, hb⟩
      obtain ⟨fits, rfl⟩ := ih.mp hd
      obtain ⟨more, rfl⟩ := (addRecord_bucketsOf (fits _)).mp hb
      exact ⟨⟨fits, more⟩, rfl⟩
    · rintro ⟨⟨fits, more⟩, rfl⟩
      exact ⟨_, ih.mpr ⟨fits, rfl⟩, (addRecord_bucketsOf (fits _)).mpr ⟨more, rfl⟩⟩

/-! ## All buckets together -/

/-- All records in the order in which their buckets are merged. -/
def regrouped (rs : List Record) : List Record :=
  (bucketsOf rs).keys.flatMap (Record.ofBucket · rs)

theorem regrouped_perm (rs : List Record) : (regrouped rs).Perm rs := by
  apply (Record.flatMap_ofBucket_perm rs (Table.nodup_keys _)).trans
  rw [List.filter_eq_self.mpr]
  intro r hr
  rw [decide_eq_true_eq, bucketsOf, Table.mem_keys_tabulate]
  exact List.mem_map_of_mem hr

theorem values_bucketsOf (rs : List Record) :
    (bucketsOf rs).values =
      ((bucketsOf rs).keys.map (Record.ofBucket · rs)).map Accumulator.ofRecords := by
  rw [List.map_map]
  exact Table.values_tabulate _ _

theorem total_bucketsOf {rs : List Record} {a : Accumulator} :
    total (bucketsOf rs) = .ok a ↔ Fits rs ∧ a = Accumulator.ofRecords (regrouped rs) := by
  rw [total, values_bucketsOf, ← fits_perm (regrouped_perm rs)]
  exact Accumulator.foldlM_merge_ofRecords fits_nil

/-! ## Every endpoint -/

def addEndpoint (s : Snapshot) (e : String × Accumulator) : Except MeterError Snapshot := do
  if e.1 = allKey then return s else return s.insert e.1 (← e.2.finish e.1)

/-- A walk over buckets that can be finished adds an entry for each but that of the aggregate. -/
theorem foldlM_addEndpoint {stats : String → EndpointStats} {es : List (String × Accumulator)}
    (ks : List String) (h : ∀ e ∈ es, e.2.finish e.1 = .ok (stats e.1)) :
    es.foldlM addEndpoint (Table.tabulate stats ks) =
      .ok (Table.tabulate stats (ks ++ (es.map (·.1)).filter (· ≠ allKey))) := by
  induction es generalizing ks with
  | nil =>
    rw [List.map_nil, List.filter_nil, List.append_nil]
    rfl
  | cons e es ih =>
    rw [List.forall_mem_cons] at h
    rw [List.foldlM_cons, addEndpoint, List.map_cons]
    by_cases hk : e.1 = allKey
    · rw [if_pos hk, List.filter_cons_of_neg (by simpa using hk)]
      exact ih ks h.2
    · rw [if_neg hk, h.1, List.filter_cons_of_pos (by simpa using hk), List.append_cons]
      have next := ih (ks ++ [e.1]) h.2
      rw [Table.tabulate_concat] at next
      exact next

/-- The statistics of every endpoint and, under its own name, of all records. -/
def described (rs : List Record) : Snapshot :=
  (Table.tabulate (fun k => EndpointStats.ofRecords (Record.ofBucket k rs))
    ((rs.map Record.bucket).filter (· ≠ allKey))).insert allKey (EndpointStats.ofRecords rs)

theorem get?_described_allKey (rs : List Record) :
    (described rs).get? allKey = some (EndpointStats.ofRecords rs) := by
  rw [described, Table.get?_insert, if_pos rfl]

theorem get?_described_of_ne {rs : List Record} {k : String} (h : k ≠ allKey) :
    (described rs).get? k =
      if k ∈ rs.map Record.bucket then some (EndpointStats.ofRecords (Record.ofBucket k rs))
      else none := by
  rw [described, Table.get?_insert, if_neg h, Table.get?_tabulate]
  simp [h]

theorem get?_described_ne_none_iff {rs : List Record} {k : String} :
    (described rs).get? k ≠ none ↔ k = allKey ∨ k ∈ rs.map Record.bucket := by
  by_cases h : k = allKey
  · subst h
    simp [get?_described_allKey]
  · rw [get?_described_of_ne h]
    simp [h]

theorem endpoints_bucketsOf (rs : List Record) :
    endpoints (bucketsOf rs) =
      .ok (Table.tabulate (fun k => EndpointStats.ofRecords (Record.ofBucket k rs))
        ((rs.map Record.bucket).filter (· ≠ allKey))) := by
  have finished : ∀ e ∈ (bucketsOf rs).entries,
      e.2.finish e.1 = .ok (EndpointStats.ofRecords (Record.ofBucket e.1 rs)) := by
    rintro ⟨k, a⟩ he
    have gathered := getD_get?_bucketsOf rs k
    rw [Table.mem_entries_iff.mp he, Option.getD_some] at gathered
    rw [gathered]
    exact Accumulator.finish_ofRecords _ _
  have names (k : String) : k ∈ [] ++ (bucketsOf rs).keys.filter (· ≠ allKey) ↔
      k ∈ (rs.map Record.bucket).filter (· ≠ allKey) := by
    rw [List.nil_append, List.mem_filter, List.mem_filter]
    exact and_congr_left' Table.mem_keys_tabulate
  rw [← Table.tabulate_congr names]
  exact @foldlM_addEndpoint (fun k => EndpointStats.ofRecords (Record.ofBucket k rs)) _ [] finished

/-! ## The whole snapshot -/

theorem ofRecords_of_fits {rs : List Record} (h : Fits rs) :
    ofRecords rs = .ok (described rs, shadowNotices (bucketsOf rs)) := by
  have collected : collect rs = .ok (bucketsOf rs) :=
    collect_eq_ok_iff.mpr ⟨fun k => h.of_sublist List.filter_sublist, rfl⟩
  have all : total (bucketsOf rs) = .ok (Accumulator.ofRecords (regrouped rs)) :=
    total_bucketsOf.mpr ⟨h, rfl⟩
  rw [ofRecords, collected]
  change ofBuckets (bucketsOf rs) = _
  rw [ofBuckets, all, endpoints_bucketsOf]
  change ((Accumulator.ofRecords (regrouped rs)).finish allKey).mapError SnapshotError.meter >>= _ = _
  rw [Accumulator.finish_ofRecords, EndpointStats.ofRecords_perm (regrouped_perm rs)]
  rfl

theorem ofRecords_of_not_fits {rs : List Record} (h : ¬ Fits rs) :
    ofRecords rs = .error (.overflow {}) := by
  rw [ofRecords]
  cases hc : collect rs with
  | error o => rfl
  | ok b =>
    obtain ⟨-, rfl⟩ := collect_eq_ok_iff.mp hc
    change ofBuckets (bucketsOf rs) = _
    rw [ofBuckets]
    cases ht : total (bucketsOf rs) with
    | error o => rfl
    | ok a => exact absurd (total_bucketsOf.mp ht).1 h

theorem ofRecords_eq_overflow_iff {rs : List Record} {o : Overflow} :
    ofRecords rs = .error (.overflow o) ↔ ¬ Fits rs := by
  constructor
  · intro h fits
    rw [ofRecords_of_fits fits] at h
    cases h
  · exact ofRecords_of_not_fits

theorem fits_of_ne_overflow {rs : List Record} (h : ∀ o, ofRecords rs ≠ .error (.overflow o)) :
    Fits rs := by
  by_contra hf
  exact h {} (ofRecords_eq_overflow_iff.mpr hf)

/-- A snapshot that is taken shows what its records are. -/
theorem eq_described_of_eq_ok {rs : List Record} {s : Snapshot} {log : List Notice}
    (h : ofRecords rs = .ok (s, log)) : Fits rs ∧ s = described rs := by
  have fits : Fits rs := fits_of_ne_overflow fun o ho => by
    rw [h] at ho
    cases ho
  rw [ofRecords_of_fits fits] at h
  cases h
  exact ⟨fits, rfl⟩

theorem ofRecords_ne_meter (rs : List Record) (e : MeterError) :
    ofRecords rs ≠ .error (.meter e) := by
  intro h
  by_cases fits : Fits rs
  · rw [ofRecords_of_fits fits] at h
    cases h
  · rw [ofRecords_of_not_fits fits] at h
    cases h

/-- A snapshot that does not overflow is taken, and counts every record for its endpoint and for the
aggregate. -/
theorem exists_ofRecords {rs : List Record} (h : ∀ o, ofRecords rs ≠ .error (.overflow o)) :
    ∃ s log all, ofRecords rs = .ok (s, log) ∧
      s.get? allKey = some all ∧ all.count + all.partials = rs.length ∧
      ∀ k, k ≠ allKey → (s.get? k).map (fun st => st.count + st.partials) =
        Table.shown? (rs.countP (·.bucket = k)) := by
  refine ⟨_, _, _, ofRecords_of_fits (fits_of_ne_overflow h), get?_described_allKey rs,
    EndpointStats.count_add_partials rs, fun k hk => ?_⟩
  have size : (Record.ofBucket k rs).length = rs.countP (·.bucket = k) :=
    List.countP_eq_length_filter.symm
  rw [get?_described_of_ne hk, ← size]
  by_cases hm : k ∈ rs.map Record.bucket
  · have some : Record.ofBucket k rs ≠ [] := fun he => Record.ofBucket_eq_nil_iff.mp he hm
    rw [if_pos hm, Option.map_some, EndpointStats.count_add_partials, Table.shown?,
      if_neg (mt List.length_eq_zero_iff.mp some)]
  · rw [if_neg hm, Record.ofBucket_eq_nil_iff.mpr hm]
    rfl

end Snapshot

end RequestMeter
