import RequestMeter.Http.Server
import RequestMeter.Proofs.Collector.Report
import RequestMeter.Proofs.Statistics.Guarded

/-! # Answers from snapshots

Only sums past 64 bits make a snapshot fail.  So a server answers a request for the statistics or for
the report whenever the sums over its cache fit, and no answer to such a request is a failure.
-/
namespace RequestMeter.Server

open Http

theorem ofSnapshot_answers {α : Type} {encode : α → Json} {rs : List Record}
    {x : Except SnapshotError (α × List Notice)} (taken : Fits rs → ∃ a, x = .ok a)
    (overflow : ¬ Fits rs → x = .error (.overflow {})) :
    (∀ answer, ofSnapshot encode x = .ok answer → answer.status = 200) ∧
      ((∃ answer, ofSnapshot encode x = .ok answer) ↔ Fits rs) := by
  by_cases fits : Fits rs
  · obtain ⟨a, rfl⟩ := taken fits
    constructor
    · intro answer h
      cases h
      rfl
    · exact ⟨fun _ => fits, fun _ => ⟨_, rfl⟩⟩
  · rw [overflow fits]
    constructor
    · intro answer h
      cases h
    · exact ⟨fun ⟨_, h⟩ => (nomatch h), fun h => absurd h fits⟩

/-- The routes of the report and of the statistics are answered when the sums over the cache fit. -/
theorem answer_snapshot (s : Server) (r : Request) (turns : Nat) {route : Route}
    (h : route = .report ∨ route = .latency) :
    (∀ answer, (s.answer route r turns).2 = .ok answer → answer.status = 200) ∧
      ((∃ answer, (s.answer route r turns).2 = .ok answer) ↔ Fits s.collector.cache.toList) := by
  rcases h with rfl | rfl
  · apply ofSnapshot_answers
    · intro fits
      exact ⟨_, Collector.report_eq_ok (Snapshot.ofRecords_of_fits fits)⟩
    · intro full
      rw [Collector.report, Collector.stats, Snapshot.ofRecords_of_not_fits full]
      rfl
  · exact ofSnapshot_answers (fun fits => ⟨_, Snapshot.ofRecords_of_fits fits⟩)
      Snapshot.ofRecords_of_not_fits

theorem handle_get {s : Server} {r : Request} {turns : Nat} {path : String} {route : Route}
    (hm : r.method = "GET") (hp : (path? r.target).map String.ofList = some path)
    (hr : Route.ofPath? path = some route) (allowed : route.allows "GET") :
    s.handle r turns = s.answer route r turns := by
  obtain ⟨cs, target, rfl⟩ := Option.map_eq_some_iff.mp hp
  rw [handle, hm, if_neg (by decide), target, Option.getD_some, hr]
  exact if_pos allowed

/-- A snapshot of records whose ten thousandfold number is a 64-bit count has no error, and
overflows exactly when some sum over all records is past 64 bits.  Every accumulator on the way has
as many samples as it counts and no counter above the number of records, and can be finished: there
is neither a percentile without samples nor, on machine numbers, a division by zero or an index out
of range.  So in any state a server answers a request for the report or the statistics if the sums
over its cache fit, and an answer is never a failure. -/
theorem snapshot_fails_iff_overflow :
    (∀ rs : List Record, 10000 * rs.length < UInt64.size →
      (∀ e, Snapshot.ofRecords rs ≠ .error (.meter e)) ∧
      (Snapshot.ofRecords rs = .error (.overflow {}) ↔ ∃ m : Measure, maxCount < m.total rs) ∧
      ∀ a, Snapshot.Arises rs a →
        a.samples.length = a.count ∧ a.count + a.partials ≤ rs.length ∧ a.errors ≤ rs.length ∧
        a.ttfbCount ≤ rs.length ∧
        ∀ k, ∃ st, a.finish k = .ok st ∧ Guarded.finish a k = .ok (.ok st)) ∧
    ∀ (s : Server) (r : Request) (turns : Nat), r.method = "GET" →
      (path? r.target).map String.ofList = some "/api/metrics" ∨
        (path? r.target).map String.ofList = some "/api/metrics/latency" →
      (∀ answer, (s.handle r turns).2 = .ok answer → answer.status = 200) ∧
      ((∃ answer, (s.handle r turns).2 = .ok answer) ↔
        ∀ m : Measure, m.total s.collector.cache.toList ≤ maxCount) := by
  constructor
  · intro rs hn
    refine ⟨Snapshot.ofRecords_ne_meter rs,
      Snapshot.ofRecords_eq_overflow_iff.trans not_fits_iff, fun a arises => ?_⟩
    obtain ⟨bounded, finished⟩ := arises.finish hn
    exact ⟨bounded.samples, bounded.records, bounded.errors, bounded.firstBytes, finished⟩
  · intro s r turns hm hp
    rcases hp with report | latency
    · have answered : s.handle r turns = s.answer .report r turns := handle_get hm report rfl rfl
      rw [answered]
      exact answer_snapshot s r turns (.inl rfl)
    · have answered : s.handle r turns = s.answer .latency r turns := handle_get hm latency rfl rfl
      rw [answered]
      exact answer_snapshot s r turns (.inr rfl)

/-- Records of two endpoints, each of which fits by itself. -/
def heavy : List Record :=
  let time : Int → Option Timestamp := Timestamp.ofMicros?
  [ { endpoint := "a", begun := time 0, inCapture := time 1000000, inBytes := maxCount },
    { endpoint := "b", begun := time 0, inCapture := time 1000000, inBytes := 1 } ]

/-- A server whose cache holds the newest records of a list, two at most. -/
def holding (rs : List Record) : Server where
  collector := { cache := rs.foldl (fun c r => (c.store r).1) (Ring.ofCapacity 2 (by decide)) }
  bus := { capacity := 1 }

theorem snapshot_fails_heavy :
    10000 * heavy.length < UInt64.size ∧
    Snapshot.ofRecords heavy = .error (.overflow {}) ∧
    (∀ answer, ((holding heavy).handle { target := "/api/metrics" } 0).2 ≠ .ok answer) ∧
    ∃ answer, answer.status = 200 ∧
      ((holding (heavy.take 1)).handle { target := "/api/metrics/latency?q" } 0).2 = .ok answer := by
  obtain ⟨lists, servers⟩ := snapshot_fails_iff_overflow
  have few : 10000 * heavy.length < UInt64.size := by decide
  have full : maxCount < Measure.inBytes.total heavy := by decide
  refine ⟨few, (lists heavy few).2.1.mpr ⟨.inBytes, full⟩, fun answer given => ?_, ?_⟩
  · have sums := (servers (holding heavy) { target := "/api/metrics" } 0 rfl (.inl (by decide))).2.mp
      ⟨answer, given⟩
    exact absurd (sums .inBytes) (Nat.not_le.mpr full)
  · obtain ⟨ok, answered⟩ := servers (holding (heavy.take 1)) { target := "/api/metrics/latency?q" }
      0 rfl (.inr (by decide))
    have fits : Fits (holding (heavy.take 1)).collector.cache.toList := by decide
    obtain ⟨answer, given⟩ := answered.mpr fits
    exact ⟨answer, ok answer given, given⟩

end RequestMeter.Server
