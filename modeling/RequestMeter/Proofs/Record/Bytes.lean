import RequestMeter.Record.Draft
import Mathlib.Algebra.Order.BigOperators.Group.List
import Mathlib.Algebra.Order.Group.Nat
import Mathlib.Algebra.GroupWithZero.Nat

/-! # Sums of a draft

A draft adds up the bytes of five stages, three inbound and two outbound, and the number of its known
events.  As long as all three sums fit no event fails, and the only event that ends a request is its end.
-/
namespace RequestMeter

def Event.inboundBytes (e : Event) : Nat :=
  match e.stage with
  | .headerReceived | .inPayload | .inTrailer => e.payload.byteCount
  | _ => 0

def Event.outboundBytes (e : Event) : Nat :=
  match e.stage with
  | .outPayload | .outTrailer => e.payload.byteCount
  | _ => 0

def Event.counted (e : Event) : Nat := if e.stage = .unknown then 0 else 1

namespace Draft

/-- The sums of a draft still fit after some more events. -/
structure Fits (d : Draft) (es : List Event) : Prop where
  inbound : d.record.inBytes + (es.map Event.inboundBytes).sum ≤ maxCount
  outbound : d.record.outBytes + (es.map Event.outboundBytes).sum ≤ maxCount
  seen : d.seen + (es.map Event.counted).sum ≤ maxSeen

variable {d : Draft} {e : Event}

theorem fits_nil_iff :
    d.Fits [] ↔ d.record.inBytes ≤ maxCount ∧ d.record.outBytes ≤ maxCount ∧ d.seen ≤ maxSeen :=
  ⟨fun ⟨hi, ho, hs⟩ => ⟨hi, ho, hs⟩, fun ⟨hi, ho, hs⟩ => ⟨hi, ho, hs⟩⟩

theorem fits_singleton_iff :
    d.Fits [e] ↔ d.record.inBytes + e.inboundBytes ≤ maxCount ∧
      d.record.outBytes + e.outboundBytes ≤ maxCount ∧ d.seen + e.counted ≤ maxSeen :=
  ⟨fun ⟨hi, ho, hs⟩ => ⟨hi, ho, hs⟩, fun ⟨hi, ho, hs⟩ => ⟨hi, ho, hs⟩⟩

/-! ## Counting an event -/

theorem gather_of_lt (h : d.seen < maxSeen) (r : Record) (ended : Bool) :
    d.gather r ended = ({ record := r, seen := d.seen + 1 }, .ok ended) := if_pos h

theorem gather_of_le (h : maxSeen ≤ d.seen) (r : Record) (ended : Bool) :
    d.gather r ended = ({ d with record := r }, .error {}) := if_neg (Nat.not_lt.mpr h)

/-- The record is changed before the event is counted. -/
@[simp] theorem record_gather (d : Draft) (r : Record) (ended : Bool) :
    (d.gather r ended).1.record = r := by
  unfold gather
  split <;> rfl

theorem gather_eq_ok_iff {r : Record} {ended b : Bool} :
    (d.gather r ended).2 = .ok b ↔ d.seen < maxSeen ∧ ended = b := by
  unfold gather
  split <;> simp [*]

theorem seen_gather (d : Draft) (r : Record) (ended : Bool) :
    (d.gather r ended).1.seen = d.seen ∨
      d.seen < maxSeen ∧ (d.gather r ended).1.seen = d.seen + 1 := by
  unfold gather
  split
  · next few => exact .inr ⟨few, rfl⟩
  · exact .inl rfl

/-! ## One event -/

/-- Whether an event ends the request: it is an end, and can be counted. -/
def completes (d : Draft) (e : Event) : Bool := e.stage = .ended && d.seen < maxSeen

theorem completes_iff : d.completes e = true ↔ e.stage = .ended ∧ d.seen < maxSeen := by
  simp [completes]

/-- A request ends with its end and with nothing else, whether or not the bytes of an event fit. -/
theorem apply_eq_ok_true_iff : (d.apply e).2 = .ok true ↔ d.completes e = true := by
  rw [completes_iff]
  cases hs : e.stage with
  | headerReceived | inPayload | inTrailer =>
    simp only [apply, hs, gatherIn]
    split <;> simp [gather_eq_ok_iff]
  | outPayload | outTrailer =>
    simp only [apply, hs, gatherOut]
    split <;> simp [gather_eq_ok_iff]
  | begun | ended => simp [apply, hs, gather_eq_ok_iff]
  | unknown => simp [apply, hs]

/-- An event whose bytes fit adds them, whether or not it can be counted. -/
theorem bytes_apply (hin : d.record.inBytes + e.inboundBytes ≤ maxCount)
    (hout : d.record.outBytes + e.outboundBytes ≤ maxCount) :
    (d.apply e).1.record.inBytes = d.record.inBytes + e.inboundBytes ∧
      (d.apply e).1.record.outBytes = d.record.outBytes + e.outboundBytes := by
  cases hs : e.stage <;>
    simp only [Event.inboundBytes, Event.outboundBytes, hs] at hin hout <;>
    simp [apply, gatherIn, gatherOut, Event.inboundBytes, Event.outboundBytes, hs,
      addCounts_of_le, hin, hout]

theorem apply_of_fits (h : d.Fits [e]) :
    (d.apply e).2 = .ok (decide (e.stage = .ended)) ∧
      (d.apply e).1.record.inBytes = d.record.inBytes + e.inboundBytes ∧
      (d.apply e).1.record.outBytes = d.record.outBytes + e.outboundBytes ∧
      (d.apply e).1.seen = d.seen + e.counted := by
  obtain ⟨hin, hout, hseen⟩ := fits_singleton_iff.mp h
  obtain ⟨inBytes, outBytes⟩ := bytes_apply hin hout
  refine and_assoc.mp ⟨⟨?_, inBytes⟩, outBytes, ?_⟩
  all_goals
    cases hs : e.stage <;>
      simp only [Event.inboundBytes, Event.outboundBytes, Event.counted, hs, reduceCtorEq, if_false,
        if_true, Nat.succ_le_iff] at hin hout hseen <;>
      simp [apply, gatherIn, gatherOut, gather_of_lt, Event.counted, hs, addCounts_of_le, hin, hout,
        hseen]

/-- An event that does not fail leaves all sums within their bounds. -/
theorem Fits.of_apply {ended : Bool} (h : d.Fits []) (ok : (d.apply e).2 = .ok ended) :
    d.Fits [e] := by
  obtain ⟨hin, hout, hseen⟩ := fits_nil_iff.mp h
  rw [fits_singleton_iff]
  cases hs : e.stage with
  | headerReceived | inPayload | inTrailer =>
    simp only [apply, hs, gatherIn] at ok
    split at ok
    next n sum =>
      have few := (gather_eq_ok_iff.mp ok).1
      have within := (addCounts_eq_ok_iff.1 sum).1
      simpa [Event.inboundBytes, Event.outboundBytes, Event.counted, hs] using ⟨within, hout, few⟩
    next => cases ok
  | outPayload | outTrailer =>
    simp only [apply, hs, gatherOut] at ok
    split at ok
    next n sum =>
      have few := (gather_eq_ok_iff.mp ok).1
      have within := (addCounts_eq_ok_iff.1 sum).1
      simpa [Event.inboundBytes, Event.outboundBytes, Event.counted, hs] using ⟨hin, within, few⟩
    next => cases ok
  | begun | ended =>
    simp only [apply, hs] at ok
    have few := (gather_eq_ok_iff.mp ok).1
    simpa [Event.inboundBytes, Event.outboundBytes, Event.counted, hs] using ⟨hin, hout, few⟩
  | unknown =>
    simpa [Event.inboundBytes, Event.outboundBytes, Event.counted, hs] using ⟨hin, hout, hseen⟩

/-- An event is counted once or not at all, and only while there is a number left. -/
theorem seen_apply (d : Draft) (e : Event) :
    (d.apply e).1.seen = d.seen ∨ d.seen < maxSeen ∧ (d.apply e).1.seen = d.seen + 1 := by
  cases hs : e.stage with
  | headerReceived | inPayload | inTrailer =>
    simp only [apply, hs, gatherIn]
    split
    · exact seen_gather d _ _
    · exact .inl rfl
  | outPayload | outTrailer =>
    simp only [apply, hs, gatherOut]
    split
    · exact seen_gather d _ _
    · exact .inl rfl
  | begun | ended =>
    simp only [apply, hs]
    exact seen_gather d _ _
  | unknown => exact .inl (by simp [apply, hs])

/-! ## Many events -/

@[simp] theorem applyAll_nil (d : Draft) : d.applyAll [] = d := rfl

@[simp] theorem applyAll_cons (d : Draft) (e : Event) (es : List Event) :
    d.applyAll (e :: es) = (d.apply e).1.applyAll es := rfl

theorem applyAll_append (d : Draft) (es fs : List Event) :
    d.applyAll (es ++ fs) = (d.applyAll es).applyAll fs := List.foldl_append

@[simp] theorem Fits.empty : Fits {} [] := ⟨Nat.zero_le _, Nat.zero_le _, Nat.zero_le _⟩

theorem Fits.of_sublist {es fs : List Event} (h : d.Fits fs) (sub : es.Sublist fs) : d.Fits es := by
  have less (w : Event → Nat) : (es.map w).sum ≤ (fs.map w).sum :=
    (sub.map w).sum_le_sum fun _ _ => Nat.zero_le _
  exact ⟨(Nat.add_le_add_left (less _) _).trans h.inbound,
    (Nat.add_le_add_left (less _) _).trans h.outbound, (Nat.add_le_add_left (less _) _).trans h.seen⟩

theorem Fits.head {es : List Event} (h : d.Fits (e :: es)) : d.Fits [e] :=
  h.of_sublist (List.sublist_append_left [e] es)

theorem Fits.cons {es : List Event} (h : d.Fits (e :: es)) :
    (d.apply e).2 = .ok (decide (e.stage = .ended)) ∧ (d.apply e).1.Fits es := by
  obtain ⟨done, inBytes, outBytes, seen⟩ := apply_of_fits h.head
  obtain ⟨hin, hout, hseen⟩ := h
  simp only [List.map_cons, List.sum_cons] at hin hout hseen
  exact ⟨done, by rw [inBytes]; omega, by rw [outBytes]; omega, by rw [seen]; omega⟩

theorem Fits.apply_last {es : List Event} (h : d.Fits (es ++ [e])) :
    ((d.applyAll es).apply e).2 = .ok (decide (e.stage = .ended)) := by
  induction es generalizing d with
  | nil => exact h.cons.1
  | cons x es ih => exact ih h.cons.2

/-- One more event fits after some others when it does not fail. -/
theorem Fits.concat {es : List Event} {ended : Bool} (h : d.Fits es)
    (ok : ((d.applyAll es).apply e).2 = .ok ended) : d.Fits (es ++ [e]) := by
  induction es generalizing d with
  | nil => exact h.of_apply ok
  | cons x es ih =>
    obtain ⟨-, inBytes, outBytes, seen⟩ := apply_of_fits h.head
    obtain ⟨restIn, restOut, restSeen⟩ := ih h.cons.2 ok
    rw [inBytes] at restIn
    rw [outBytes] at restOut
    rw [seen] at restSeen
    exact ⟨by simpa [Nat.add_assoc] using restIn, by simpa [Nat.add_assoc] using restOut,
      by simpa [Nat.add_assoc] using restSeen⟩

theorem seen_applyAll_le_add (d : Draft) (es : List Event) :
    (d.applyAll es).seen ≤ d.seen + es.length := by
  induction es generalizing d with
  | nil => exact Nat.le_refl _
  | cons e es ih =>
    have first := seen_apply d e
    have rest := ih (d.apply e).1
    rw [applyAll_cons, List.length_cons]
    omega

theorem seen_applyAll_replicate (begun : e.stage = .begun) {n : Nat} (h : n ≤ maxSeen) :
    (applyAll {} (List.replicate n e)).seen = n := by
  induction n with
  | zero => rfl
  | succ n ih =>
    have before := ih (Nat.le_of_succ_le h)
    have few : (applyAll {} (List.replicate n e)).seen < maxSeen := by omega
    rw [List.replicate_succ', applyAll_append, applyAll_cons, applyAll_nil]
    simp only [apply, begun, gather_of_lt few, before]

theorem apply_of_seen_eq (full : d.seen = maxSeen) (begun : e.stage = .begun ∨ e.stage = .ended) :
    (d.apply e).2 = .error {} ∧ (d.apply e).1.seen = maxSeen := by
  have none : maxSeen ≤ d.seen := Nat.le_of_eq full.symm
  rcases begun with hs | hs
  all_goals
    simp only [apply, hs, gather_of_le none]
    exact ⟨trivial, full⟩

end Draft

end RequestMeter
