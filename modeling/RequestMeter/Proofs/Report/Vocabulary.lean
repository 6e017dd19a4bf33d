import RequestMeter.Proofs.Report.Names

/-! # The vocabulary of a report

Whatever the scopes are called, two slots of a report with the same key are the same slot.  What follows
the last slash of a key is enough to tell which metric it is: no plain metric is a status, and no class
of statuses is either.
-/
namespace RequestMeter.Report

/-- The metrics without a slash: those of the statistics and the counters' own. -/
def plainNames : List String := metricNames ++ ["evicted", "in_flight", "requests"]

/-- The metrics that a report can have. -/
inductive Named : String → Prop where
  | plain {m : String} (h : m ∈ plainNames) : Named m
  | status (s : UInt16) : Named ("status/" ++ toString s.toNat)
  | statusClass (c : StatusClass) : Named ("status/" ++ c.label)

theorem named_of_mem_metricNames {m : String} (h : m ∈ metricNames) : Named m :=
  .plain (List.mem_append_left _ h)

theorem Counter.named {t : Tally} {inFlight n : Nat} {slot : Slot} (h : Counter t inFlight slot n) :
    Named slot.metric := by
  cases h with
  | total | evicted | inFlight => exact .plain (by decide)
  | transport => exact .plain (show "count" ∈ plainNames by decide)
  | requests => exact .plain (show "requests" ∈ plainNames by decide)
  | status => exact .status _
  | statusClass => exact .statusClass _

/-! ## What follows the last slash -/

theorem slash_notMem_plainNames : ∀ m ∈ plainNames, '/' ∉ m.toList := by decide

theorem slash_notMem_status (s : UInt16) : '/' ∉ (toString s.toNat).toList := fun h =>
  absurd (digit_of_mem_toString h) (by decide)

theorem leaf_plain {m : String} (h : m ∈ plainNames) : leaf m.toList = m.toList :=
  leaf_eq_self (slash_notMem_plainNames m h)

theorem ne_status {m : String} (h : m.toList.all Char.isDigit = false) (s : UInt16) :
    m ≠ toString s.toNat := by
  rintro rfl
  obtain ⟨c, hc, hd⟩ := List.all_eq_false.mp h
  exact hd (digit_of_mem_toString hc)

theorem plain_ne_status {m : String} (h : m ∈ plainNames) (s : UInt16) : m ≠ toString s.toNat := by
  have hall : ∀ m ∈ plainNames, m.toList.all Char.isDigit = false := by decide
  exact ne_status (hall m h) s

theorem label_ne_status (c : StatusClass) (s : UInt16) : c.label ≠ toString s.toNat :=
  ne_status (by cases c <;> decide) s

theorem plain_ne_label {m : String} (h : m ∈ plainNames) (c : StatusClass) : m ≠ c.label := by
  rintro rfl
  revert h
  cases c <;> decide

/-- What follows the last slash tells the metrics of a report apart. -/
theorem Named.eq_of_leaf_eq {m k : String} (hm : Named m) (hk : Named k)
    (h : leaf m.toList = leaf k.toList) : m = k := by
  cases hm with
  | plain hm =>
    rw [leaf_plain hm] at h
    cases hk with
    | plain hk =>
      rw [leaf_plain hk] at h
      exact String.toList_inj.mp h
    | status s =>
      rw [leaf_status _ (slash_notMem_status s)] at h
      exact absurd (String.toList_inj.mp h) (plain_ne_status hm s)
    | statusClass c =>
      rw [leaf_status _ (slash_notMem_label c)] at h
      exact absurd (String.toList_inj.mp h) (plain_ne_label hm c)
  | status s =>
    rw [leaf_status _ (slash_notMem_status s)] at h
    cases hk with
    | plain hk =>
      rw [leaf_plain hk] at h
      exact absurd (String.toList_inj.mp h).symm (plain_ne_status hk s)
    | status u =>
      rw [leaf_status _ (slash_notMem_status u)] at h
      rw [String.toList_inj.mp h]
    | statusClass c =>
      rw [leaf_status _ (slash_notMem_label c)] at h
      exact absurd (String.toList_inj.mp h).symm (label_ne_status c s)
  | statusClass c =>
    rw [leaf_status _ (slash_notMem_label c)] at h
    cases hk with
    | plain hk =>
      rw [leaf_plain hk] at h
      exact absurd (String.toList_inj.mp h).symm (plain_ne_label hk c)
    | status s =>
      rw [leaf_status _ (slash_notMem_status s)] at h
      exact absurd (String.toList_inj.mp h) (label_ne_status c s)
    | statusClass d =>
      rw [leaf_status _ (slash_notMem_label d)] at h
      rw [String.toList_inj.mp h]

/-- Slots of a report are told apart by their keys, whatever their scopes. -/
theorem eq_of_key_eq {p q : Slot} (hp : Named p.metric) (hq : Named q.metric) (h : p.key = q.key) :
    p = q := by
  have hm : p.metric = q.metric := by
    apply hp.eq_of_leaf_eq hq
    rw [← Slot.leaf_key, ← Slot.leaf_key, h]
  have hs : p.scope = q.scope := Slot.scope_eq_of_key_eq hm h
  cases p
  cases q
  simp_all

/-! ## Metrics of the counters -/

def endpointMetrics (e : EndpointTally) : List (String × Binary64) :=
  ("requests", .ofNat e.total) ::
    e.byStatus.entries.map (fun s => ("status/" ++ toString s.1.toNat, .ofNat s.2)) ++
    e.byClass.entries.map (fun c => ("status/" ++ c.1.label, .ofNat c.2))

theorem label_injective : Function.Injective StatusClass.label := by
  intro c d h
  cases c <;> cases d <;> first | rfl | exact absurd h (by decide)

theorem decimal_injective : Function.Injective fun n : Nat => toString n := by
  intro m n h
  have hd := congrArg (fun t : String => Nat.ofDigitChars 10 t.toList 0) h
  simpa only [Nat.toString_eq_repr, Nat.repr_eq_ofList_toDigits, String.toList_ofList,
    Nat.ofDigitChars_toDigits (by decide : 1 < 10) (by decide : 10 ≤ 10)] using hd

theorem status_injective : Function.Injective fun s : UInt16 => "status/" ++ toString s.toNat :=
  fun _ _ h => UInt16.toNat_inj.mp (decimal_injective ((String.append_right_inj _).mp h))

theorem statusClass_injective : Function.Injective fun c : StatusClass => "status/" ++ c.label :=
  fun _ _ h => label_injective ((String.append_right_inj _).mp h)

theorem ne_status_append {m : String} (h : m.toList.head? ≠ some 's') (d : String) :
    m ≠ "status/" ++ d := by
  rintro rfl
  simp at h

theorem map_fst_endpointMetrics (e : EndpointTally) :
    (endpointMetrics e).map (·.1) =
      "requests" :: (e.byStatus.keys.map (fun s => "status/" ++ toString s.toNat) ++
        e.byClass.keys.map fun c => "status/" ++ c.label) := by
  simp [endpointMetrics, Table.keys, Function.comp_def]

theorem nodup_endpointMetrics (e : EndpointTally) : ((endpointMetrics e).map (·.1)).Nodup := by
  rw [map_fst_endpointMetrics, List.nodup_cons, List.nodup_append]
  refine ⟨?_, e.byStatus.nodup_keys.map status_injective, e.byClass.nodup_keys.map statusClass_injective,
    ?_⟩
  · intro h
    rcases List.mem_append.mp h with h | h
    · obtain ⟨s, -, hs⟩ := List.mem_map.mp h
      exact ne_status_append (by decide) _ hs.symm
    · obtain ⟨c, -, hc⟩ := List.mem_map.mp h
      exact ne_status_append (by decide) _ hc.symm
  · intro m hm k hk he
    obtain ⟨s, -, rfl⟩ := List.mem_map.mp hm
    obtain ⟨c, -, rfl⟩ := List.mem_map.mp hk
    exact label_ne_status c s ((String.append_right_inj _).mp he).symm

end RequestMeter.Report
