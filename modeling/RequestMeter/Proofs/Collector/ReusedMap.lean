import RequestMeter.Proofs.Collector.Transports
import RequestMeter.Report.Sink

/-! # Maps that reports are written into again and again

A map keeps what a report does not have, so it can hold values that are out of date.  Counters never
disappear from a report, the aggregate is in every one, and an endpoint is in every one while it has a
cached record.  What can be out of date are therefore only the metrics of endpoints whose records have
all been displaced.
-/
namespace RequestMeter

/-! ## Counters that stay -/

/-- A count that shows goes on showing when it grows. -/
theorem Table.exists_shown? {n m k : Nat} (h : n ≤ m) (hn : shown? n = some k) :
    ∃ l, shown? m = some l := by
  unfold shown? at hn
  split at hn
  · cases hn
  · exact ⟨m, if_neg (by omega)⟩

namespace Tally

theorem exists_byTransport_append {rs : List Record} (qs : List Record) {u : Transport} {n : Nat}
    (h : (ofRecords rs).byTransport.get? u = some n) :
    ∃ m, (ofRecords (rs ++ qs)).byTransport.get? u = some m := by
  rw [byTransport_ofRecords, Table.get?_counts] at h ⊢
  refine Table.exists_shown? ?_ h
  rw [List.filterMap_append, List.count_append]
  exact Nat.le_add_right _ _

theorem exists_byEndpoint_append {rs : List Record} (qs : List Record) {k : String} {e : EndpointTally}
    (h : (ofRecords rs).byEndpoint.get? k = some e) :
    ∃ f, (ofRecords (rs ++ qs)).byEndpoint.get? k = some f := by
  rw [get?_byEndpoint_ofRecords] at h ⊢
  have some : rs.filter (·.bucket = k) ≠ [] := by
    intro none
    rw [if_pos none] at h
    cases h
  refine ⟨_, if_neg ?_⟩
  rw [List.filter_append]
  exact List.append_ne_nil_of_left_ne_nil some _

theorem exists_part_append {κ : Type} [Key κ] [DecidableEq κ] {part : EndpointTally → Table κ Nat}
    {key : Record → κ} (hpart : ∀ rs, part (EndpointTally.ofRecords rs) = Table.counts (rs.map key))
    {rs : List Record} (qs : List Record) {k : String} {e : EndpointTally} {x : κ} {n : Nat}
    (he : (ofRecords rs).byEndpoint.get? k = some e) (hx : (part e).get? x = some n) :
    ∃ f m, (ofRecords (rs ++ qs)).byEndpoint.get? k = some f ∧ (part f).get? x = some m := by
  have before := get?_part_ofRecords hpart rs k x
  rw [he, Option.bind_some, hx] at before
  have grown : rs.countP (fun r => r.bucket = k ∧ key r = x) ≤
      (rs ++ qs).countP fun r => r.bucket = k ∧ key r = x := by
    rw [List.countP_append]
    exact Nat.le_add_right _ _
  obtain ⟨m, hm⟩ := Table.exists_shown? grown before.symm
  obtain ⟨f, hf, hfx⟩ := Option.bind_eq_some_iff.mp
    ((get?_part_ofRecords hpart (rs ++ qs) k x).trans hm)
  exact ⟨f, m, hf, hfx⟩

end Tally

/-- A slot of the counters is one of theirs for good, however many records are counted and displaced
later. -/
theorem Report.Counter.persists {rs : List Record} {inFlight evicted n : Nat} {slot : Slot}
    (h : Counter { Tally.ofRecords rs with evicted } inFlight slot n) (qs : List Record)
    (inFlight' evicted' : Nat) :
    ∃ m, Counter { Tally.ofRecords (rs ++ qs) with evicted := evicted' } inFlight' slot m := by
  cases h with
  | total => exact ⟨_, .total⟩
  | evicted => exact ⟨_, .evicted⟩
  | inFlight => exact ⟨_, .inFlight⟩
  | transport h =>
    obtain ⟨m, hm⟩ := Tally.exists_byTransport_append qs h
    exact ⟨m, .transport hm⟩
  | requests h =>
    obtain ⟨f, hf⟩ := Tally.exists_byEndpoint_append qs h
    exact ⟨_, .requests hf⟩
  | status h hs =>
    obtain ⟨f, m, hf, hm⟩ := Tally.exists_part_append EndpointTally.byStatus_ofRecords qs h hs
    exact ⟨m, .status hf hm⟩
  | statusClass h hc =>
    obtain ⟨f, m, hf, hm⟩ := Tally.exists_part_append EndpointTally.byClass_ofRecords qs h hc
    exact ⟨m, .statusClass hf hm⟩

/-! ## Keys of a report -/

namespace Report

variable {s : Snapshot} {t : Tally} {inFlight : Nat}

theorem get?_build_ne_none_iff {key : String} :
    (build s t inFlight).1.get? key ≠ none ↔ ∃ slot, Defined s t inFlight slot ∧ slot.key = key := by
  simp only [Option.ne_none_iff_exists', get?_build_eq_some_iff, ← exists_shown_iff_defined]
  constructor
  · rintro ⟨x, slot, h, hk⟩
    exact ⟨slot, ⟨x, h⟩, hk⟩
  · rintro ⟨slot, ⟨x, h⟩, hk⟩
    exact ⟨x, slot, h, hk⟩

/-- A report written into a map takes precedence over what the map held. -/
theorem get?_writeMap (r : Report) (m : Table String Binary64) (key : String) :
    (r.writeMap m).get? key = (r.get? key).or (m.get? key) :=
  Table.get?_merge m r.values key

end Report

namespace Collector

variable {capacity : Nat} {hc : 0 < capacity}

/-! ## A collector and its map -/

/-- What happens to a collector whose reports go into one map. -/
inductive Moment where
  | step (s : Step)
  | report

def Moment.step? : Moment → Option Step
  | .step s => some s
  | .report => none

/-- A collector and the map that its reports are written into. -/
structure Mapped where
  collector : Collector
  map : Table String Binary64 := .empty

namespace Mapped

def fresh (capacity : Nat) (h : 0 < capacity) : Mapped := { collector := .fresh capacity h }

/-- A report that is not taken leaves the map as it is. -/
def advance (d : Mapped) : Moment → Mapped
  | .step s => { d with collector := d.collector.step s }
  | .report => match d.collector.report with
    | .ok (r, _) => { d with map := r.writeMap d.map }
    | .error _ => d

def after (d : Mapped) (moments : List Moment) : Mapped := moments.foldl advance d

theorem after_concat (d : Mapped) (moments : List Moment) (m : Moment) :
    d.after (moments ++ [m]) = (d.after moments).advance m := List.foldl_append

theorem collector_after (d : Mapped) (moments : List Moment) :
    (d.after moments).collector = d.collector.run (moments.filterMap Moment.step?) := by
  induction moments using List.reverseRecOn with
  | nil => rfl
  | append_singleton before m ih =>
    rw [after_concat, List.filterMap_append]
    cases m with
    | step s => exact (congrArg (·.step s) ih).trans (run_concat _ _ s).symm
    | report =>
      rw [show [Moment.report].filterMap Moment.step? = [] from rfl, List.append_nil, ← ih, advance]
      split <;> rfl

theorem map_after_report {d : Mapped} {moments : List Moment} {r : Report} {log : List Notice}
    (h : (d.after moments).collector.report = .ok (r, log)) :
    (d.after (moments ++ [.report])).map = r.writeMap (d.after moments).map := by
  rw [after_concat, advance, h]

/-- The keys of the map are those of all reports that were taken. -/
theorem get?_map_ne_none_iff {moments : List Moment} {key : String} :
    ((fresh capacity hc).after moments).map.get? key ≠ none ↔
      ∃ earlier r log, earlier ++ [.report] <+: moments ∧
        ((fresh capacity hc).after earlier).collector.report = .ok (r, log) ∧ r.get? key ≠ none := by
  induction moments using List.reverseRecOn with
  | nil => simp [after, fresh]
  | append_singleton before m ih =>
    -- A further moment adds the report that is taken in it, if one is.
    have more : (∃ earlier r log, earlier ++ [.report] <+: before ++ [m] ∧
          ((fresh capacity hc).after earlier).collector.report = .ok (r, log) ∧ r.get? key ≠ none) ↔
        ((fresh capacity hc).after before).map.get? key ≠ none ∨ m = .report ∧
          ∃ r log, ((fresh capacity hc).after before).collector.report = .ok (r, log) ∧
            r.get? key ≠ none := by
      simp only [ih, List.prefix_concat_iff, List.append_singleton_inj]
      constructor
      · rintro ⟨earlier, r, log, ⟨rfl, rfl⟩ | hp, hr, hk⟩
        · exact .inr ⟨rfl, r, log, hr, hk⟩
        · exact .inl ⟨earlier, r, log, hp, hr, hk⟩
      · rintro (⟨earlier, r, log, hp, hr, hk⟩ | ⟨rfl, r, log, hr, hk⟩)
        · exact ⟨earlier, r, log, .inr hp, hr, hk⟩
        · exact ⟨before, r, log, .inl ⟨rfl, rfl⟩, hr, hk⟩
    rw [more]
    cases m with
    | step s => simp [after_concat, advance]
    | report =>
      cases hr : ((fresh capacity hc).after before).collector.report with
      | error e => simp [after_concat, advance, hr]
      | ok p =>
        obtain ⟨r, log⟩ := p
        rw [map_after_report hr, Report.get?_writeMap, ne_eq, Option.or_eq_none_iff, not_and_or,
          or_comm]
        refine or_congr_right ⟨fun h => ⟨rfl, r, log, rfl, h⟩, ?_⟩
        rintro ⟨-, _, _, he, h⟩
        cases he
        exact h

end Mapped

/-! ## What reports have for good -/

/-- A report that is taken shows the records that are cached. -/
theorem eq_build_of_report {c : Collector} {r : Report} {log : List Notice}
    (h : c.report = .ok (r, log)) :
    r = (Report.build (Snapshot.described c.cache.toList) c.tally c.inFlight.size).1 := by
  cases hs : Snapshot.ofRecords c.cache.toList with
  | error e =>
    rw [report, stats, hs] at h
    cases h
  | ok p =>
    obtain ⟨s, warned⟩ := p
    obtain ⟨-, rfl⟩ := Snapshot.eq_described_of_eq_ok hs
    rw [report_eq_ok hs] at h
    cases h
    rfl

theorem exists_report {c : Collector} (h : ∀ o, c.report ≠ .error (.overflow o)) :
    ∃ r log, c.report = .ok (r, log) := by
  obtain ⟨s, log, all, hs, -⟩ := Snapshot.exists_ofRecords (stats_ne_overflow h)
  exact ⟨_, _, report_eq_ok hs⟩

/-- It has the counters, and the metrics of the aggregate and of the endpoints with a cached record.
-/
theorem get?_report_ne_none_iff {c : Collector} {r : Report} {log : List Notice}
    (h : c.report = .ok (r, log)) {key : String} :
    r.get? key ≠ none ↔
      (∃ slot n, Report.Counter c.tally c.inFlight.size slot n ∧ slot.key = key) ∨
      ∃ k m, (k = allKey ∨ ∃ q ∈ c.cache.toList, q.bucket = k) ∧ m ∈ Report.metricNames ∧
        Slot.key ⟨k, m⟩ = key := by
  have entry (k : String) : ((Snapshot.described c.cache.toList).get? k).isSome ↔
      k = allKey ∨ ∃ q ∈ c.cache.toList, q.bucket = k := by
    rw [← Option.ne_none_iff_isSome, Snapshot.get?_described_ne_none_iff, List.mem_map]
  simp only [eq_build_of_report h, Report.get?_build_ne_none_iff, Report.Defined]
  constructor
  · rintro ⟨slot, ⟨n, hn⟩ | ⟨hk, hm⟩, rfl⟩
    · exact .inl ⟨slot, n, hn, rfl⟩
    · exact .inr ⟨slot.scope, slot.metric, (entry _).mp hk, hm, rfl⟩
  · rintro (⟨slot, n, hn, rfl⟩ | ⟨k, m, hk, hm, rfl⟩)
    · exact ⟨slot, .inl ⟨n, hn⟩, rfl⟩
    · exact ⟨⟨k, m⟩, .inr ⟨(entry k).mpr hk, hm⟩, rfl⟩

/-- No key is put together in two ways, so what a slot shows is its own. -/
theorem get?_report_key_ne_none_iff {c : Collector} {r : Report} {log : List Notice}
    (h : c.report = .ok (r, log)) {slot : Slot} (named : Report.Named slot.metric) :
    r.get? slot.key ≠ none ↔
      (∃ n, Report.Counter c.tally c.inFlight.size slot n) ∨
      (slot.scope = allKey ∨ ∃ q ∈ c.cache.toList, q.bucket = slot.scope) ∧
        slot.metric ∈ Report.metricNames := by
  rw [get?_report_ne_none_iff h]
  constructor
  · rintro (⟨other, n, hn, he⟩ | ⟨k, m, hk, hm, he⟩)
    · obtain rfl := Report.eq_of_key_eq hn.named named he
      exact .inl ⟨n, hn⟩
    · obtain rfl := Report.eq_of_key_eq (Report.named_of_mem_metricNames hm) named he
      exact .inr ⟨hk, hm⟩
  · rintro (⟨n, hn⟩ | ⟨hk, hm⟩)
    · exact .inl ⟨slot, n, hn, rfl⟩
    · exact .inr ⟨slot.scope, slot.metric, hk, hm, rfl⟩

theorem get?_report_counter {c : Collector} {r : Report} {log : List Notice}
    (h : c.report = .ok (r, log)) {slot : Slot} {n : Nat}
    (hn : Report.Counter c.tally c.inFlight.size slot n) : r.get? slot.key = some (.ofNat n) := by
  rw [eq_build_of_report h, Report.get?_build_eq_some_iff]
  exact ⟨slot, .counter hn, rfl⟩

namespace Mapped

theorem counter_persists {earlier moments : List Moment} (hp : earlier <+: moments) {slot : Slot}
    {n : Nat} :
    let before := ((fresh capacity hc).after earlier).collector
    let now := ((fresh capacity hc).after moments).collector
    Report.Counter before.tally before.inFlight.size slot n →
      ∃ m, Report.Counter now.tally now.inFlight.size slot m := by
  obtain ⟨more, rfl⟩ := hp
  intro before now h
  simp only [before, now, fresh, collector_after, List.filterMap_append, (books_run _).tally] at h ⊢
  rw [completed, completedFrom_append]
  exact h.persists _ _ _

/-- The endpoint of a record that was cached at an earlier moment is counted. -/
theorem counted_of_cached {earlier moments : List Moment} (hp : earlier <+: moments) {q : Record}
    (hq : q ∈ ((fresh capacity hc).after earlier).collector.cache.toList) :
    (((fresh capacity hc).after moments).collector.tally.byEndpoint.get? q.bucket).isSome := by
  obtain ⟨more, rfl⟩ := hp
  simp only [fresh, collector_after, List.filterMap_append, toList_cache_run, (books_run _).tally]
    at hq ⊢
  rw [completed, completedFrom_append, Tally.get?_byEndpoint_ofRecords, if_neg]
  · rfl
  · rw [List.filter_append]
    have mem : q ∈ (completed (earlier.filterMap Moment.step?)).filter (·.bucket = q.bucket) :=
      List.mem_filter.mpr ⟨List.mem_of_mem_drop hq, by simp⟩
    exact List.append_ne_nil_of_left_ne_nil (List.ne_nil_of_mem mem) _

/-- What a map can hold: the counters, and the metrics of the aggregate and of the endpoints that were
counted. -/
theorem key_of_map {moments : List Moment} {key : String}
    (h : ((fresh capacity hc).after moments).map.get? key ≠ none) :
    let c := ((fresh capacity hc).after moments).collector
    (∃ slot n, Report.Counter c.tally c.inFlight.size slot n ∧ slot.key = key) ∨
      ∃ k m, (k = allKey ∨ (c.tally.byEndpoint.get? k).isSome) ∧ m ∈ Report.metricNames ∧
        Slot.key ⟨k, m⟩ = key := by
  intro c
  obtain ⟨earlier, r, log, hr, taken, hkey⟩ := get?_map_ne_none_iff.mp h
  have hp : earlier <+: moments := (List.prefix_append _ _).trans hr
  rcases (get?_report_ne_none_iff taken).mp hkey with ⟨slot, n, hn, hslot⟩ | ⟨k, m, hk, hm, hslot⟩
  · obtain ⟨now, hnow⟩ := counter_persists hp hn
    exact .inl ⟨slot, now, hnow, hslot⟩
  · refine .inr ⟨k, m, hk.imp_right ?_, hm, hslot⟩
    rintro ⟨q, hq, rfl⟩
    exact counted_of_cached hp hq

/-- What was reported of an endpoint stays in the map. -/
theorem get?_map_of_cached {earlier moments : List Moment} (hp : earlier ++ [.report] <+: moments)
    (fits : ∀ o, ((fresh capacity hc).after earlier).collector.report ≠ .error (.overflow o))
    {q : Record} (hq : q ∈ ((fresh capacity hc).after earlier).collector.cache.toList) {m : String}
    (hm : m ∈ Report.metricNames) :
    ((fresh capacity hc).after moments).map.get? (Slot.key ⟨q.bucket, m⟩) ≠ none := by
  obtain ⟨r, log, taken⟩ := exists_report fits
  have shown : r.get? (Slot.key ⟨q.bucket, m⟩) ≠ none :=
    (get?_report_ne_none_iff taken).mpr (.inr ⟨q.bucket, m, .inr ⟨q, hq, rfl⟩, hm, rfl⟩)
  exact get?_map_ne_none_iff.mpr ⟨earlier, r, log, hp, taken, shown⟩

/-- Whatever happens between the reports that are written into one map, failures included: after a
report that does not overflow the map agrees with it on all of its keys.  Any other key of the map
is one of the seventeen metrics of an endpoint, not the aggregate, that was counted but has no
cached record left.  A counter that there ever was shows its present number, and all metrics of the
aggregate show. -/
theorem map_out_of_date_only_without_records (capacity : Nat) (hc : 0 < capacity)
    (moments : List Moment)
    (h : ∀ o, ((fresh capacity hc).after moments).collector.report ≠ .error (.overflow o)) :
    let c := ((fresh capacity hc).after moments).collector
    let map := ((fresh capacity hc).after (moments ++ [.report])).map
    ∃ r log, c.report = .ok (r, log) ∧
      (∀ key x, r.get? key = some x → map.get? key = some x) ∧
      (∀ key, map.get? key ≠ none → r.get? key = none →
        ∃ k m, key = Slot.key ⟨k, m⟩ ∧ m ∈ Report.metricNames ∧ k ≠ allKey ∧
          (c.tally.byEndpoint.get? k).isSome ∧ ∀ q ∈ c.cache.toList, q.bucket ≠ k) ∧
      (∀ earlier, earlier <+: moments → ∀ slot n,
        let before := ((fresh capacity hc).after earlier).collector
        Report.Counter before.tally before.inFlight.size slot n →
          ∃ now, Report.Counter c.tally c.inFlight.size slot now ∧
            map.get? slot.key = some (.ofNat now)) ∧
      ∀ m ∈ Report.metricNames, ∃ x, r.get? (Slot.key ⟨allKey, m⟩) = some x ∧
        map.get? (Slot.key ⟨allKey, m⟩) = some x := by
  intro c map
  obtain ⟨r, log, taken⟩ := exists_report h
  have looked (key : String) : map.get? key =
      (r.get? key).or (((fresh capacity hc).after moments).map.get? key) := by
    rw [← Report.get?_writeMap, ← map_after_report taken]
  have agrees (key : String) (x : Binary64) (hx : r.get? key = some x) : map.get? key = some x := by
    rw [looked, hx, Option.some_or]
  refine ⟨r, log, taken, agrees, ?_, ?_, ?_⟩
  · intro key hmap hr
    rw [looked, hr, Option.none_or] at hmap
    have absent := mt (get?_report_ne_none_iff taken).mpr (not_not.mpr hr)
    rw [not_or] at absent
    obtain ⟨k, m, hk, hm, rfl⟩ := (key_of_map hmap).resolve_left absent.1
    have gone : ¬ (k = allKey ∨ ∃ q ∈ c.cache.toList, q.bucket = k) :=
      fun shown => absent.2 ⟨k, m, shown, hm, rfl⟩
    rw [not_or] at gone
    exact ⟨k, m, rfl, hm, gone.1, hk.resolve_left gone.1, fun q hq he => gone.2 ⟨q, hq, he⟩⟩
  · intro earlier hp slot n before hn
    obtain ⟨now, hnow⟩ := counter_persists hp hn
    exact ⟨now, hnow, agrees _ _ (get?_report_counter taken hnow)⟩
  · intro m hm
    have shown := (get?_report_ne_none_iff taken).mpr (.inr ⟨allKey, m, .inl rfl, hm, rfl⟩)
    obtain ⟨x, hx⟩ := Option.ne_none_iff_exists'.mp shown
    exact ⟨x, hx, agrees _ _ hx⟩

/-- Two transactions over RPC.  The endpoint of the first is named like another transport; its
record is reported, and then displaced. -/
def displacing : List Moment :=
  let event (stage : Stage) (id endpoint : String) : Moment :=
    .step (.observe {
      stage, transport := .rpc, requestId := id, endpoint, timestamp := .epoch })
  [event .headerReceived "a" "http", event .ended "a" "", .report, event .begun "b" "",
    .step .discard, event .begun "c" "", event .ended "c" ""]

/-- The first endpoint's metrics are out of date, also the count, which looks like that of a
transport.  What is counted of it is not. -/
theorem map_out_of_date_displacing :
    let c := ((fresh 1 Nat.one_pos).after displacing).collector
    let map := ((fresh 1 Nat.one_pos).after (displacing ++ [.report])).map
    let count := Slot.key ⟨Transport.http.label, "count"⟩
    0 < 1 ∧ (∀ o, c.report ≠ .error (.overflow o)) ∧
      ∃ r log, c.report = .ok (r, log) ∧ map.get? count ≠ none ∧ r.get? count = none ∧
        (∃ k m, count = Slot.key ⟨k, m⟩ ∧ m ∈ Report.metricNames ∧ k ≠ allKey ∧
          (c.tally.byEndpoint.get? k).isSome ∧ ∀ q ∈ c.cache.toList, q.bucket ≠ k) ∧
        (∃ now, map.get? (Slot.key ⟨Transport.http.label, "requests"⟩) = some (.ofNat now)) ∧
        ∃ x, map.get? (Slot.key ⟨allKey, "p50"⟩) = some x := by
  intro c map count
  -- The collector is evaluated without the map, so no report is.
  have state : c = (Collector.fresh 1 Nat.one_pos).run (displacing.filterMap Moment.step?) :=
    collector_after _ _
  have fits : ∀ o, c.report ≠ .error (.overflow o) :=
    report_ne_overflow (by rw [state]; decide +kernel)
  have seen : (c.tally.byEndpoint.get? Transport.http.label).isSome := by
    rw [state]
    decide +kernel
  have unsent (n : Nat) : c.tally.byTransport.get? .http ≠ some n := by
    have none : (completed (displacing.filterMap Moment.step?)).countP
        (·.transport = some .http) = 0 := by decide
    rw [state, get?_byTransport_run, none]
    exact nofun
  have displaced : ∀ q ∈ c.cache.toList, q.bucket ≠ Transport.http.label := by
    rw [state, toList_cache_run]
    decide
  obtain ⟨r, log, taken, -, outOfDate, counters, aggregate⟩ :=
    map_out_of_date_only_without_records 1 Nat.one_pos displacing fits
  have absent : r.get? count = none := by
    by_contra shown
    rcases (get?_report_key_ne_none_iff taken Report.named_count).mp shown with ⟨n, hn⟩ | ⟨hk, -⟩
    · exact unsent n (Report.counter_transport_iff.mp hn)
    · obtain ⟨q, hq, hb⟩ := hk.resolve_left (by decide)
      exact displaced q hq hb
  have held : map.get? count ≠ none := by
    have first : ((fresh 1 Nat.one_pos).after (displacing.take 2)).collector =
        (Collector.fresh 1 Nat.one_pos).run ((displacing.take 2).filterMap Moment.step?) :=
      collector_after _ _
    obtain ⟨q, hq, hb⟩ : ∃ q ∈ ((fresh 1 Nat.one_pos).after (displacing.take 2)).collector.cache.toList,
        q.bucket = Transport.http.label := by
      rw [first, toList_cache_run]
      decide
    have started : displacing.take 2 ++ [.report] <+: displacing ++ [.report] :=
      (List.take_prefix 3 displacing).trans (List.prefix_append _ _)
    have fitted := report_ne_overflow (c := (Collector.fresh 1 Nat.one_pos).run
      ((displacing.take 2).filterMap Moment.step?)) (by decide +kernel)
    have shown := get?_map_of_cached started (first ▸ fitted) hq (show "count" ∈ _ by decide)
    rwa [hb] at shown
  obtain ⟨e, requests⟩ := Option.isSome_iff_exists.mp seen
  obtain ⟨now, -, counted⟩ := counters displacing List.prefix_rfl _ _ (.requests requests)
  obtain ⟨x, -, all⟩ := aggregate "p50" (by decide)
  exact ⟨Nat.one_pos, fits, r, log, taken, held, absent, outOfDate _ held absent, ⟨now, counted⟩,
    x, all⟩

end Mapped

end Collector

end RequestMeter
