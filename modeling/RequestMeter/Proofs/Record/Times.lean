import RequestMeter.Proofs.Record.Bytes
import Mathlib.Data.List.Induction

/-! # Times of a record

Every time of a draft is that of an event it gathered, and a draft that knows its first byte knows an
outbound capture that is not before it.  When the events came in the order of their timestamps and ended
with the end of the request, the durations of the record bound each other.  Begin may be reported late or
more than once, so that a capture can lie before it; then the window is empty.
-/
namespace RequestMeter

/-! ## Moments in their order -/

namespace Timestamp

/-- Moments follow each other by day, second of the day and nanosecond. -/
instance : LE Timestamp where
  le s t := s.day < t.day ∨ s.day = t.day ∧
    (s.second < t.second ∨ s.second = t.second ∧ s.nano ≤ t.nano)

instance (s t : Timestamp) : Decidable (s ≤ t) :=
  inferInstanceAs (Decidable (_ ∨ _ ∧ (_ ∨ _ ∧ _)))

/-- Nanoseconds since the start of day 0, as if there were no leap seconds. -/
def instant (t : Timestamp) : Int := (t.day * 86400 + t.second) * 1000000000 + t.nano

variable {s t : Timestamp}

theorem nano_lt_of_isLeapSecond (h : t.isLeapSecond = false) : t.nano < 1000000000 := by
  simpa [isLeapSecond] using h

theorem nanosSince_eq (hs : s.isLeapSecond = false) (ht : t.isLeapSecond = false) :
    t.nanosSince s = t.instant - s.instant := by
  have plain : leapCorrection t s = 0 := by simp [leapCorrection, hs, ht]
  rw [nanosSince, plain, instant, instant]
  omega

theorem millisSince_eq (hs : s.isLeapSecond = false) (ht : t.isLeapSecond = false) :
    t.millisSince s = (t.instant - s.instant).toNat / 1000000 := by
  rw [millisSince, nanosSince_eq hs ht]

theorem secondsSince_eq (hs : s.isLeapSecond = false) (ht : t.isLeapSecond = false) :
    t.secondsSince s = (t.instant - s.instant).toNat / 1000000000 := by
  rw [secondsSince, nanosSince_eq hs ht]

theorem le_iff_instant_le (hs : s.isLeapSecond = false) (ht : t.isLeapSecond = false) :
    s ≤ t ↔ s.instant ≤ t.instant := by
  have ns := nano_lt_of_isLeapSecond hs
  have nt := nano_lt_of_isLeapSecond ht
  have ds := s.second_lt
  have dt := t.second_lt
  change (s.day < t.day ∨ s.day = t.day ∧
    (s.second < t.second ∨ s.second = t.second ∧ s.nano ≤ t.nano)) ↔ _
  rw [instant, instant]
  omega

end Timestamp

/-- Events in the order of their timestamps, none of them in a leap second. -/
def Chronological (es : List Event) : Prop :=
  (es.Pairwise fun x y => x.timestamp ≤ y.timestamp) ∧ ∀ x ∈ es, x.timestamp.isLeapSecond = false

instance (es : List Event) : Decidable (Chronological es) := inferInstanceAs (Decidable (_ ∧ _))

theorem Chronological.of_concat {es : List Event} {e : Event} (h : Chronological (es ++ [e])) :
    Chronological es :=
  ⟨(List.pairwise_append.mp h.1).1, fun x hx => h.2 x (List.mem_append_left _ hx)⟩

structure Timestamp.PlainBy (finish t : Timestamp) : Prop where
  plain : t.isLeapSecond = false
  instant_le : t.instant ≤ finish.instant

theorem Chronological.plainBy {es : List Event} {e : Event} (h : Chronological (es ++ [e]))
    {t : Timestamp} (ht : t ∈ (es ++ [e]).map (·.timestamp)) : e.timestamp.PlainBy t := by
  obtain ⟨x, hx, rfl⟩ := List.mem_map.mp ht
  obtain ⟨ordered, plain⟩ := h
  refine ⟨plain x hx, ?_⟩
  rcases List.mem_append.mp hx with old | last
  · apply (Timestamp.le_iff_instant_le (plain x hx) (plain e (by simp))).mp
    exact (List.pairwise_append.mp ordered).2.2 x old e (by simp)
  · cases List.mem_singleton.mp last
    exact Int.le_refl _

/-! ## Times of a draft -/

namespace Draft

/-- What one event does to the times of a draft. -/
theorem times_apply (d : Draft) (e : Event) :
    let r := (d.apply e).1.record
    (r.begun = d.record.begun ∨ r.begun = some e.timestamp) ∧
    (r.inCapture = d.record.inCapture ∨ r.inCapture = some e.timestamp) ∧
    (r.firstByte = d.record.firstByte ∧ r.outCapture = d.record.outCapture ∨
      (r.firstByte = d.record.firstByte ∨ r.firstByte = some e.timestamp) ∧
        r.outCapture = some e.timestamp) := by
  cases hs : e.stage with
  | headerReceived | inPayload | inTrailer =>
    simp only [apply, hs, gatherIn]
    split <;> simp
  | outPayload | outTrailer =>
    simp only [apply, hs, gatherOut]
    -- A first byte that is known already stays.
    split <;> cases d.record.firstByte <;> simp
  | begun | ended | unknown => simp [apply, hs]

/-- The times of a draft are those of events it gathered, and the first byte is not after the last
outbound capture. -/
structure Timed (es : List Event) (d : Draft) : Prop where
  begun : ∀ t, d.record.begun = some t → t ∈ es.map (·.timestamp)
  inCapture : ∀ t, d.record.inCapture = some t → t ∈ es.map (·.timestamp)
  outCapture : ∀ t, d.record.outCapture = some t → t ∈ es.map (·.timestamp)
  firstByte : ∀ t, d.record.firstByte = some t → t ∈ es.map (·.timestamp)
  captured : ∀ t, d.record.firstByte = some t →
    ∃ u, d.record.outCapture = some u ∧ t.instant ≤ u.instant

theorem timed_empty : Timed [] {} := by
  constructor <;> (intro t ht; cases ht)

theorem mem_timestamps_concat {es : List Event} {e : Event} {old new : Option Timestamp}
    (h : ∀ t, old = some t → t ∈ es.map (·.timestamp)) (set : new = old ∨ new = some e.timestamp)
    (t : Timestamp) (ht : new = some t) : t ∈ (es ++ [e]).map (·.timestamp) := by
  rw [List.map_append, List.mem_append]
  rcases set with rfl | rfl
  · exact .inl (h t ht)
  · cases ht
    exact .inr List.mem_cons_self

/-- An event that is not before the others keeps the times in their order. -/
theorem Timed.apply {es : List Event} {d : Draft} (h : Timed es d) {e : Event}
    (last : ∀ t ∈ (es ++ [e]).map (·.timestamp), t.instant ≤ e.timestamp.instant) :
    Timed (es ++ [e]) (d.apply e).1 := by
  obtain ⟨begun, inCapture, outbound⟩ := d.times_apply e
  have firstByte := outbound.elim (fun same => .inl same.1) And.left
  have outCapture := outbound.imp And.right And.right
  have mem := mem_timestamps_concat h.firstByte firstByte
  refine ⟨mem_timestamps_concat h.begun begun, mem_timestamps_concat h.inCapture inCapture,
    mem_timestamps_concat h.outCapture outCapture, mem, fun t ht => ?_⟩
  rcases outbound with ⟨sameFirst, sameOut⟩ | ⟨-, out⟩
  · rw [sameOut]
    exact h.captured t (sameFirst ▸ ht)
  · exact ⟨_, out, last t (mem t ht)⟩

theorem timed_applyAll {es : List Event} (h : Chronological es) : Timed es (applyAll {} es) := by
  induction es using List.reverseRecOn with
  | nil => exact timed_empty
  | append_singleton es e ih =>
    rw [applyAll_append, applyAll_cons, applyAll_nil]
    apply (ih h.of_concat).apply
    intro t ht
    exact (h.plainBy ht).instant_le

end Draft

/-! ## Durations of a record -/

namespace Record

/-- What the durations of a record are that began and ended: the latency is the exact difference,
and no other duration is longer.  A first byte comes with an outbound window that is not shorter. -/
structure Spans (r : Record) (begin finish : Timestamp) (ms : Nat) : Prop where
  ended : r.ended = some finish
  latency : r.latency = some ms
  forward : begin ≤ finish
  exact : (ms : Int) = (finish.instant - begin.instant) / 1000000
  firstByte : ∀ first, r.timeToFirstByte = some first → first ≤ ms
  inWindow : ∀ secs, r.inWindow = some secs → secs ≤ ms / 1000
  outWindow : ∀ secs, r.outWindow = some secs → secs ≤ ms / 1000
  windowed : ∀ first, r.timeToFirstByte = some first →
    ∃ secs, r.outWindow = some secs ∧ first / 1000 ≤ secs

variable {r : Record} {begin finish : Timestamp}

/-- A window up to a capture that is not after the end is no longer than the latency. -/
theorem secondsSince_le (hb : begin.isLeapSecond = false) (hf : finish.isLeapSecond = false)
    {t : Timestamp} (ht : finish.PlainBy t) :
    t.secondsSince begin ≤ finish.millisSince begin / 1000 := by
  rw [Timestamp.secondsSince_eq hb ht.plain, Timestamp.millisSince_eq hb hf]
  have le := ht.instant_le
  omega

theorem spans_of_times (hb : r.begun = some begin) (he : r.ended = some finish)
    (begins : finish.PlainBy begin) (hf : finish.isLeapSecond = false)
    (inCapture : ∀ t, r.inCapture = some t → finish.PlainBy t)
    (outCapture : ∀ t, r.outCapture = some t → finish.PlainBy t)
    (firstByte : ∀ t, r.firstByte = some t → finish.PlainBy t)
    (captured : ∀ t, r.firstByte = some t → ∃ u, r.outCapture = some u ∧ t.instant ≤ u.instant) :
    r.Spans begin finish (finish.millisSince begin) where
  ended := he
  latency := by simp [Record.latency, hb, he]
  forward := (Timestamp.le_iff_instant_le begins.plain hf).mpr begins.instant_le
  exact := by
    rw [Timestamp.millisSince_eq begins.plain hf]
    have le := begins.instant_le
    omega
  firstByte first h := by
    obtain ⟨t, ht, rfl⟩ : ∃ t, r.firstByte = some t ∧ t.millisSince begin = first := by
      simpa [timeToFirstByte, hb, Option.bind_eq_some_iff] using h
    have by_end := firstByte t ht
    rw [Timestamp.millisSince_eq begins.plain by_end.plain, Timestamp.millisSince_eq begins.plain hf]
    have le := by_end.instant_le
    omega
  inWindow secs h := by
    obtain ⟨t, ht, rfl⟩ : ∃ t, r.inCapture = some t ∧ t.secondsSince begin = secs := by
      simpa [Record.inWindow, hb, Option.bind_eq_some_iff] using h
    exact secondsSince_le begins.plain hf (inCapture t ht)
  outWindow secs h := by
    obtain ⟨t, ht, rfl⟩ : ∃ t, r.outCapture = some t ∧ t.secondsSince begin = secs := by
      simpa [Record.outWindow, hb, Option.bind_eq_some_iff] using h
    exact secondsSince_le begins.plain hf (outCapture t ht)
  windowed first h := by
    obtain ⟨t, ht, rfl⟩ : ∃ t, r.firstByte = some t ∧ t.millisSince begin = first := by
      simpa [timeToFirstByte, hb, Option.bind_eq_some_iff] using h
    obtain ⟨u, hu, le⟩ := captured t ht
    refine ⟨u.secondsSince begin, by simp [Record.outWindow, hb, hu], ?_⟩
    rw [Timestamp.millisSince_eq begins.plain (firstByte t ht).plain,
      Timestamp.secondsSince_eq begins.plain (outCapture u hu).plain]
    omega

end Record

/-- The events of a request that ended, in their order, give the record its durations. -/
theorem Draft.spans_applyAll {es : List Event} {e : Event} (he : e.stage = .ended)
    (h : Chronological (es ++ [e])) {begin : Timestamp}
    (hb : (applyAll {} (es ++ [e])).record.begun = some begin) :
    ∃ ms, (applyAll {} (es ++ [e])).record.Spans begin e.timestamp ms := by
  have timed : Timed (es ++ [e]) (applyAll {} (es ++ [e])) := timed_applyAll h
  have ended : (applyAll {} (es ++ [e])).record.ended = some e.timestamp := by
    rw [applyAll_append, applyAll_cons, applyAll_nil]
    simp [apply, he]
  exact ⟨_, Record.spans_of_times hb ended (h.plainBy (timed.begun _ hb)) (h.2 e (by simp))
    (fun t ht => h.plainBy (timed.inCapture t ht)) (fun t ht => h.plainBy (timed.outCapture t ht))
    (fun t ht => h.plainBy (timed.firstByte t ht)) timed.captured⟩

end RequestMeter
