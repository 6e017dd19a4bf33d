import RequestMeter.Proofs.Report.Lookup
import RequestMeter.Proofs.Report.Vocabulary

/-! # Contents of a report

A report shows every counter and every metric of every endpoint, except the counts of endpoints that are
named like the totals or like a transport that is counted.  Each of those is dropped with one warning,
and nothing else is.  The averages of the endpoints are any numbers of `Binary64`, so neither negative nor
infinite ones.
-/
namespace RequestMeter

theorem Table.size_eq_sum {κ : Type} [Key κ] {α : Type} (t : Table κ α) :
    t.size = t.sum fun _ _ => 1 := by
  simp [size, sum]

theorem Table.size_insert {κ : Type} [Key κ] {α : Type} {t : Table κ α} {k : κ} (v : α)
    (h : t.get? k = none) : (t.insert k v).size = t.size + 1 := by
  have hs := sum_update (fun _ _ => 1) t k fun _ => v
  rw [← insert, ← size_eq_sum, ← size_eq_sum, h] at hs
  simpa using hs

namespace Report

/-! ## Slots by scope -/

/-- The metrics of all entries of a table, each under the key of its entry. -/
def slotsOf {α : Type} (t : Table String α) (metrics : α → List (String × Binary64)) :
    List (Slot × Binary64) :=
  t.entries.flatMap fun e => (metrics e.2).map fun m => (⟨e.1, m.1⟩, m.2)

theorem statsSlots_eq (s : Snapshot) : statsSlots s = slotsOf s metrics := rfl

theorem length_slotsOf {α : Type} (t : Table String α) (metrics : α → List (String × Binary64)) :
    (slotsOf t metrics).length = t.sum fun _ v => (metrics v).length := by
  simp [slotsOf, Table.sum, List.length_flatMap]

theorem nodup_slotsOf {α : Type} (t : Table String α) {metrics : α → List (String × Binary64)}
    (h : ∀ v, ((metrics v).map (·.1)).Nodup) : ((slotsOf t metrics).map (·.1)).Nodup := by
  rw [slotsOf, List.map_flatMap, List.nodup_flatMap]
  constructor
  · intro e _
    rw [List.map_map]
    have hm := (h e.2).map (f := Slot.mk e.1) fun _ _ hs => (Slot.mk.inj hs).2
    rwa [List.map_map] at hm
  · have hk : t.entries.Pairwise fun a b => a.1 ≠ b.1 := List.pairwise_map.mp t.nodup_keys
    refine hk.imp fun {a b} hab => ?_
    intro slot ha hb
    simp only [List.map_map, List.mem_map, Function.comp_apply] at ha hb
    obtain ⟨_, _, rfl⟩ := ha
    obtain ⟨_, _, hs⟩ := hb
    exact hab (Slot.mk.inj hs).1.symm

/-! ## Slots of the counters -/

def totalSlots (t : Tally) (inFlight : Nat) : List (Slot × Binary64) :=
  [(⟨totalScope, "count"⟩, .ofNat t.total), (⟨totalScope, "evicted"⟩, .ofNat t.evicted),
    (⟨totalScope, "in_flight"⟩, .ofNat inFlight)]

def transportSlots (t : Tally) : List (Slot × Binary64) :=
  t.byTransport.entries.map fun u => (⟨u.1.label, "count"⟩, .ofNat u.2)

theorem counterSlots_eq (t : Tally) (inFlight : Nat) :
    counterSlots t inFlight =
      totalSlots t inFlight ++ transportSlots t ++ slotsOf t.byEndpoint endpointMetrics := by
  simp [counterSlots, totalSlots, transportSlots, slotsOf, endpointMetrics, Function.comp_def]

theorem mem_counterSlots {t : Tally} {inFlight : Nat} {slot : Slot} {x : Binary64} :
    (slot, x) ∈ counterSlots t inFlight ↔ ∃ n, Counter t inFlight slot n ∧ x = .ofNat n := by
  refine ⟨counter_of_mem, ?_⟩
  rintro ⟨n, h, rfl⟩
  simp only [counterSlots, List.mem_append, List.mem_cons, List.not_mem_nil, or_false,
    List.mem_map, List.mem_flatMap, Prod.exists, Table.mem_entries_iff, Prod.mk.injEq]
  cases h with
  | total => exact .inl (.inl (.inl ⟨rfl, rfl⟩))
  | evicted => exact .inl (.inl (.inr (.inl ⟨rfl, rfl⟩)))
  | inFlight => exact .inl (.inl (.inr (.inr ⟨rfl, rfl⟩)))
  | transport h => exact .inl (.inr ⟨_, _, h, rfl, rfl⟩)
  | requests h => exact .inr ⟨_, _, h, .inl (.inl ⟨rfl, rfl⟩)⟩
  | status h hs => exact .inr ⟨_, _, h, .inl (.inr ⟨_, _, hs, rfl, rfl⟩)⟩
  | statusClass h hc => exact .inr ⟨_, _, h, .inr ⟨_, _, hc, rfl, rfl⟩⟩

theorem label_ne_totalScope (u : Transport) : u.label ≠ totalScope := by
  cases u <;> decide

/-- The metrics of an endpoint are not those of the totals or of a transport. -/
theorem notMem_of_mem_endpointMetrics {e : EndpointTally} {m : String}
    (h : m ∈ (endpointMetrics e).map (·.1)) : m ∉ ["count", "evicted", "in_flight"] := by
  have head : ∀ m ∈ ["count", "evicted", "in_flight"], m.toList.head? ≠ some 's' := by decide
  rw [map_fst_endpointMetrics, List.mem_cons, List.mem_append, List.mem_map, List.mem_map] at h
  intro hm
  rcases h with rfl | ⟨s, -, rfl⟩ | ⟨c, -, rfl⟩
  · exact absurd hm (by decide)
  · exact ne_status_append (head _ hm) _ rfl
  · exact ne_status_append (head _ hm) _ rfl

theorem nodup_counterSlots (t : Tally) (inFlight : Nat) :
    ((counterSlots t inFlight).map (·.1)).Nodup := by
  have totals : ((totalSlots t inFlight).map (·.1)).Nodup := by
    simp [totalSlots]
  have transports : ((transportSlots t).map (·.1)).Nodup := by
    have h := t.byTransport.nodup_keys.map (f := fun u => (⟨u.label, "count"⟩ : Slot))
      fun _ _ hs => Transport.label_injective (Slot.mk.inj hs).1
    rw [transportSlots, List.map_map]
    rwa [Table.keys, List.map_map] at h
  rw [counterSlots_eq, List.map_append, List.map_append, List.nodup_append, List.nodup_append]
  refine ⟨⟨totals, transports, ?_⟩, nodup_slotsOf _ nodup_endpointMetrics, ?_⟩
  · intro p hp q hq he
    subst he
    have scope : p.scope = totalScope := by
      simp only [totalSlots, List.map_cons, List.map_nil, List.mem_cons, List.not_mem_nil,
        or_false] at hp
      rcases hp with rfl | rfl | rfl <;> rfl
    simp only [transportSlots, List.map_map, List.mem_map, Function.comp_apply] at hq
    obtain ⟨u, -, rfl⟩ := hq
    exact label_ne_totalScope u.1 scope
  · intro p hp q hq he
    subst he
    have metric : p.metric ∈ ["count", "evicted", "in_flight"] := by
      rcases List.mem_append.mp hp with hp | hp
      · simp only [totalSlots, List.map_cons, List.map_nil, List.mem_cons, List.not_mem_nil,
          or_false] at hp
        rcases hp with rfl | rfl | rfl <;> decide
      · simp only [transportSlots, List.map_map, List.mem_map, Function.comp_apply] at hp
        obtain ⟨u, -, rfl⟩ := hp
        exact List.mem_cons_self
    simp only [slotsOf, List.map_flatMap, List.map_map, List.mem_flatMap, List.mem_map,
      Function.comp_apply] at hq
    obtain ⟨e, -, m, hm, rfl⟩ := hq
    exact notMem_of_mem_endpointMetrics (List.mem_map_of_mem hm) metric

/-! ## Keys -/

theorem nodup_keys_of_named {slots : List (Slot × Binary64)} (h : (slots.map (·.1)).Nodup)
    (named : ∀ slot x, (slot, x) ∈ slots → Named slot.metric) :
    (slots.map (·.1.key)).Nodup := by
  have keys : slots.map (·.1.key) = (slots.map (·.1)).map Slot.key := by
    rw [List.map_map]
    rfl
  rw [keys]
  refine List.Nodup.map_on ?_ h
  intro p hp q hq he
  obtain ⟨⟨p, x⟩, hx, rfl⟩ := List.mem_map.mp hp
  obtain ⟨⟨q, y⟩, hy, rfl⟩ := List.mem_map.mp hq
  exact eq_of_key_eq (named p x hx) (named q y hy) he

theorem nodup_keys_counterSlots (t : Tally) (inFlight : Nat) :
    ((counterSlots t inFlight).map (·.1.key)).Nodup := by
  refine nodup_keys_of_named (nodup_counterSlots t inFlight) fun slot x hx => ?_
  obtain ⟨n, hc, -⟩ := counter_of_mem hx
  exact hc.named

theorem named_of_mem_statsSlots {s : Snapshot} {slot : Slot} {x : Binary64}
    (h : (slot, x) ∈ statsSlots s) : Named slot.metric := by
  obtain ⟨v, -, hm⟩ := mem_statsSlots.mp h
  exact named_of_mem_metricNames hm.mem_metricNames

theorem nodup_keys_statsSlots (s : Snapshot) : ((statsSlots s).map (·.1.key)).Nodup :=
  nodup_keys_of_named (nodup_slotsOf s fun v => map_fst_metrics v ▸ nodup_metricNames)
    fun _ _ => named_of_mem_statsSlots

/-- Where no key occurs twice, the first value under a key is the only one. -/
theorem firstValue?_eq_some_iff {slots : List (Slot × Binary64)}
    (nodup : (slots.map (·.1.key)).Nodup) {key : String} {x : Binary64} :
    firstValue? key slots = some x ↔ ∃ slot, (slot, x) ∈ slots ∧ slot.key = key := by
  constructor
  · intro h
    obtain ⟨⟨slot, y⟩, hfind, rfl⟩ := Option.map_eq_some_iff.mp h
    exact ⟨slot, List.mem_of_find?_eq_some hfind, by simpa using List.find?_some hfind⟩
  · rintro ⟨slot, hm, rfl⟩
    refine firstValue?_eq_some hm fun other y hy he => ?_
    exact congrArg Prod.snd (List.inj_on_of_nodup_map nodup hy hm he)

theorem firstValue?_counterSlots {t : Tally} {inFlight : Nat} {slot : Slot} {x : Binary64}
    (named : Named slot.metric) :
    firstValue? slot.key (counterSlots t inFlight) = some x ↔
      ∃ n, Counter t inFlight slot n ∧ x = .ofNat n := by
  rw [firstValue?_eq_some_iff (nodup_keys_counterSlots t inFlight), ← mem_counterSlots]
  constructor
  · rintro ⟨other, hm, he⟩
    obtain ⟨n, hc, -⟩ := counter_of_mem hm
    exact eq_of_key_eq hc.named named he ▸ hm
  · exact fun hm => ⟨slot, hm, rfl⟩

/-! ## What a report shows -/

/-- The values of a report: the counters, and the metrics of the endpoints where no counter is. -/
inductive Shown (s : Snapshot) (t : Tally) (inFlight : Nat) : Slot → Binary64 → Prop where
  | counter {slot : Slot} {n : Nat} (h : Counter t inFlight slot n) :
      Shown s t inFlight slot (.ofNat n)
  | metric {k m : String} {v : EndpointStats} {x : Binary64} (hv : s.get? k = some v)
      (hm : Metric v m x) (free : ∀ n, ¬ Counter t inFlight ⟨k, m⟩ n) :
      Shown s t inFlight ⟨k, m⟩ x

variable {s : Snapshot} {t : Tally} {inFlight : Nat}

theorem get?_build_eq_some_iff {key : String} {x : Binary64} :
    (build s t inFlight).1.get? key = some x ↔
      ∃ slot, Shown s t inFlight slot x ∧ slot.key = key := by
  rw [get?_build, Option.or_eq_some_iff]
  constructor
  · rintro (hc | ⟨free, hs⟩)
    · obtain ⟨slot, hm, rfl⟩ := (firstValue?_eq_some_iff (nodup_keys_counterSlots _ _)).mp hc
      obtain ⟨n, hn, rfl⟩ := counter_of_mem hm
      exact ⟨slot, .counter hn, rfl⟩
    · obtain ⟨⟨k, m⟩, hm, rfl⟩ := (firstValue?_eq_some_iff (nodup_keys_statsSlots s)).mp hs
      obtain ⟨v, hv, hx⟩ := mem_statsSlots.mp hm
      refine ⟨⟨k, m⟩, .metric hv hx fun n hn => ?_, rfl⟩
      rw [(firstValue?_counterSlots hn.named).mpr ⟨n, hn, rfl⟩] at free
      cases free
  · rintro ⟨slot, h, rfl⟩
    cases h with
    | counter h => exact .inl ((firstValue?_counterSlots h.named).mpr ⟨_, h, rfl⟩)
    | metric hv hm free =>
      refine .inr ⟨?_, firstValue?_statsSlots hv hm⟩
      refine Option.eq_none_iff_forall_ne_some.mpr fun y hy => ?_
      obtain ⟨n, hn, -⟩ :=
        (firstValue?_counterSlots (named_of_mem_metricNames hm.mem_metricNames)).mp hy
      exact free n hn

/-! ## What a report drops -/

/-- Whether the counters have the count of an endpoint with this name. -/
def isCounted (t : Tally) (k : String) : Bool :=
  k = totalScope || t.byTransport.keys.any fun u => u.label = k

theorem counter_iff_isCounted {k m : String} (hm : m ∈ metricNames) :
    (∃ n, Counter t inFlight ⟨k, m⟩ n) ↔ m = "count" ∧ isCounted t k = true := by
  have slash : '/' ∉ m.toList := slash_notMem_metricNames m hm
  simp only [isCounted, Bool.or_eq_true, decide_eq_true_eq, List.any_eq_true, Table.mem_keys_iff,
    Option.ne_none_iff_exists']
  constructor
  · rintro ⟨n, h⟩
    cases h with
    | total => exact ⟨rfl, .inl rfl⟩
    | evicted | inFlight | requests => exact absurd hm (by decide)
    | transport h => exact ⟨rfl, .inr ⟨_, ⟨_, h⟩, rfl⟩⟩
    | status | statusClass => exact absurd slash (by simp)
  · rintro ⟨rfl, rfl | ⟨u, ⟨n, hn⟩, rfl⟩⟩
    · exact ⟨_, .total⟩
    · exact ⟨n, .transport hn⟩

theorem putAll_append (r : Report) (xs ys : List (Slot × Binary64)) :
    r.putAll (xs ++ ys) =
      (((r.putAll xs).1.putAll ys).1, (r.putAll xs).2 ++ ((r.putAll xs).1.putAll ys).2) := by
  induction xs generalizing r with
  | nil => rfl
  | cons e xs ih => simp [putAll, ih]

/-- Each value is put in or dropped with one warning. -/
theorem size_putAll (slots : List (Slot × Binary64)) (r : Report) :
    (r.putAll slots).1.size + (r.putAll slots).2.length = r.size + slots.length := by
  induction slots generalizing r with
  | nil => rfl
  | cons e slots ih =>
    have hput : (r.put e.1 e.2).1.size + (r.put e.1 e.2).2.length = r.size + 1 := by
      unfold put
      split
      · rename_i h
        exact Table.size_insert e.2 h
      · rfl
    have hrest := ih (r.put e.1 e.2).1
    simp only [putAll, List.length_append, List.length_cons]
    omega

/-- Where no key occurs twice, what is dropped are the values whose keys were taken before. -/
theorem notices_putAll {slots : List (Slot × Binary64)} (nodup : (slots.map (·.1.key)).Nodup)
    (r : Report) :
    (r.putAll slots).2 =
      (slots.filter fun e => (r.get? e.1.key).isSome).map fun e => .keyTaken e.1.key := by
  induction slots generalizing r with
  | nil => rfl
  | cons e slots ih =>
    obtain ⟨fresh, nodup⟩ := List.nodup_cons.mp nodup
    have rest : (slots.filter fun f => ((r.put e.1 e.2).1.get? f.1.key).isSome) =
        slots.filter fun f => (r.get? f.1.key).isSome := by
      refine List.filter_congr fun f hf => ?_
      have hne : e.1.key ≠ f.1.key := by
        intro he
        exact fresh (List.mem_map.mpr ⟨f, hf, he.symm⟩)
      rw [get?_put, if_neg hne, Option.or_none]
    have first : (r.put e.1 e.2).2 = if (r.get? e.1.key).isSome then [.keyTaken e.1.key] else [] := by
      unfold put
      split
      · rename_i h
        simp [get?, h]
      · rename_i h
        simp [get?, h]
    simp only [putAll, ih nodup, rest, first, List.filter_cons]
    split <;> rfl

theorem length_counterSlots (t : Tally) (inFlight : Nat) :
    (counterSlots t inFlight).length = 3 + t.byTransport.size +
      t.byEndpoint.sum fun _ e => 1 + e.byStatus.size + e.byClass.size := by
  have endpoint (e : EndpointTally) :
      (endpointMetrics e).length = 1 + e.byStatus.size + e.byClass.size := by
    simp only [endpointMetrics, List.length_append, List.length_cons, List.length_map, Table.size]
    omega
  rw [counterSlots_eq, List.length_append, List.length_append, length_slotsOf, transportSlots,
    List.length_map]
  simp only [endpoint]
  rfl

theorem length_statsSlots (s : Snapshot) : (statsSlots s).length = 17 * s.size := by
  have seventeen (v : EndpointStats) : (metrics v).length = 17 := by
    rw [← List.length_map (·.1), map_fst_metrics]
    rfl
  rw [statsSlots_eq, length_slotsOf]
  simp [seventeen, Table.sum, Table.size, Nat.mul_comm]

theorem filter_statsSlots (s : Snapshot) (p : String → Bool) :
    ((statsSlots s).filter fun e => decide (e.1.metric = "count") && p e.1.scope) =
      (s.entries.filter fun e => p e.1).map fun e => (⟨e.1, "count"⟩, .ofNat e.2.count) := by
  rw [statsSlots_eq, slotsOf]
  induction s.entries with
  | nil => rfl
  | cons e es ih =>
    have own : (((metrics e.2).map fun m => ((⟨e.1, m.1⟩, m.2) : Slot × Binary64)).filter fun f =>
        decide (f.1.metric = "count") && p f.1.scope) =
          if p e.1 then [(⟨e.1, "count"⟩, .ofNat e.2.count)] else [] := by
      cases hp : p e.1 <;> simp [metrics, Ladder.labelled, hp]
    rw [List.flatMap_cons, List.filter_append, ih, own, List.filter_cons]
    split <;> rfl

/-- One warning for each endpoint whose name the counters use, in the order of the endpoints. -/
theorem notices_build (s : Snapshot) (t : Tally) (inFlight : Nat) :
    (build s t inFlight).2 =
      (s.keys.filter (isCounted t)).map fun k => .keyTaken (Slot.key ⟨k, "count"⟩) := by
  have counters : (putAll {} (counterSlots t inFlight)).2 = [] := by
    rw [notices_putAll (nodup_keys_counterSlots t inFlight)]
    simp [get?]
  have taken : ∀ e ∈ statsSlots s,
      ((putAll {} (counterSlots t inFlight)).1.get? e.1.key).isSome =
        (decide (e.1.metric = "count") && isCounted t e.1.scope) := by
    rintro ⟨⟨k, m⟩, x⟩ he
    obtain ⟨v, -, hm⟩ := mem_statsSlots.mp he
    have hc : (∃ n, Counter t inFlight ⟨k, m⟩ n) ↔ _ := counter_iff_isCounted hm.mem_metricNames
    rw [get?_putAll, Bool.eq_iff_iff, Bool.and_eq_true, decide_eq_true_eq, ← hc,
      show get? {} (Slot.key ⟨k, m⟩) = none from rfl, Option.none_or, Option.isSome_iff_exists]
    simp only [firstValue?_counterSlots (named_of_mem_statsSlots he)]
    constructor
    · rintro ⟨_, n, hn, -⟩
      exact ⟨n, hn⟩
    · rintro ⟨n, hn⟩
      exact ⟨_, n, hn, rfl⟩
  rw [build, putAll_append, counters, List.nil_append, notices_putAll (nodup_keys_statsSlots s),
    List.filter_congr taken, filter_statsSlots, Table.keys, List.filter_map, List.map_map, List.map_map]
  rfl

/-! ## Faithful reports -/

def Defined (s : Snapshot) (t : Tally) (inFlight : Nat) (slot : Slot) : Prop :=
  (∃ n, Counter t inFlight slot n) ∨ (s.get? slot.scope).isSome ∧ slot.metric ∈ metricNames

theorem Defined.named {slot : Slot} (h : Defined s t inFlight slot) : Named slot.metric := by
  rcases h with ⟨n, hn⟩ | ⟨-, hm⟩
  · exact hn.named
  · exact named_of_mem_metricNames hm

theorem exists_shown_iff_defined {slot : Slot} :
    (∃ x, Shown s t inFlight slot x) ↔ Defined s t inFlight slot := by
  constructor
  · rintro ⟨x, h⟩
    cases h with
    | counter h => exact .inl ⟨_, h⟩
    | metric hv hm => exact .inr ⟨Option.isSome_of_eq_some hv, hm.mem_metricNames⟩
  · intro h
    by_cases hc : ∃ n, Counter t inFlight slot n
    · obtain ⟨n, hn⟩ := hc
      exact ⟨_, .counter hn⟩
    · obtain ⟨hv, hm⟩ := h.resolve_left hc
      obtain ⟨v, hv⟩ := Option.isSome_iff_exists.mp hv
      obtain ⟨x, hx⟩ := exists_metric v hm
      exact ⟨x, .metric hv hx (not_exists.mp hc)⟩

/-- Whatever the endpoints are called, a report has the keys of the slots that the counters and the
statistics define, and no other; different slots have different keys; a counter shows its number,
and a metric shows its value wherever there is no counter.  All that is dropped, with one warning
each, are the counts of the endpoints that the counters have under the same name: `Total`, or a
transport that was counted. -/
theorem build_faithful (s : Snapshot) (t : Tally) (inFlight : Nat) :
    let r := (build s t inFlight).1
    let log := (build s t inFlight).2
    (∀ key, r.get? key ≠ none ↔ ∃ slot, Defined s t inFlight slot ∧ slot.key = key) ∧
    (∀ p q, Defined s t inFlight p → Defined s t inFlight q → p.key = q.key → p = q) ∧
    (∀ slot n, Counter t inFlight slot n → r.get? slot.key = some (.ofNat n)) ∧
    (∀ k m v x, s.get? k = some v → Metric v m x → (∀ n, ¬ Counter t inFlight ⟨k, m⟩ n) →
      r.get? (Slot.key ⟨k, m⟩) = some x) ∧
    log = (s.keys.filter (isCounted t)).map (fun k => .keyTaken (Slot.key ⟨k, "count"⟩)) ∧
    r.size + (s.keys.filter (isCounted t)).length =
      3 + t.byTransport.size + (t.byEndpoint.sum fun _ e => 1 + e.byStatus.size + e.byClass.size) +
        17 * s.size := by
  intro r log
  have dropped : log = (s.keys.filter (isCounted t)).map _ := notices_build s t inFlight
  refine ⟨?_, ?_, ?_, ?_, dropped, ?_⟩
  · intro key
    simp only [Option.ne_none_iff_exists', r, get?_build_eq_some_iff, ← exists_shown_iff_defined]
    constructor
    · rintro ⟨x, slot, h, hk⟩
      exact ⟨slot, ⟨x, h⟩, hk⟩
    · rintro ⟨slot, ⟨x, h⟩, hk⟩
      exact ⟨x, slot, h, hk⟩
  · intro p q hp hq
    exact eq_of_key_eq hp.named hq.named
  · intro slot n h
    exact get?_build_eq_some_iff.mpr ⟨slot, .counter h, rfl⟩
  · intro k m v x hv hm free
    exact get?_build_eq_some_iff.mpr ⟨⟨k, m⟩, .metric hv hm free, rfl⟩
  · have sizes := size_putAll (counterSlots t inFlight ++ statsSlots s) {}
    have taken : log.length = (s.keys.filter (isCounted t)).length := by
      rw [dropped, List.length_map]
    rw [List.length_append, length_counterSlots, length_statsSlots] at sizes
    rw [← taken, ← sizes.trans (Nat.zero_add _)]
    rfl

end Report

end RequestMeter
