import RequestMeter.Proofs.Record.Bytes

/-! # Events that do not fit

An event fails when its bytes and the sum they belong to are past the largest count together, or when
there is no number left to count it, and for no other reason.  In the first case the draft keeps its
sums, its times and its outcome; only a header has already changed the texts and the transport.
-/
namespace RequestMeter.Draft

/-- The bytes of the event and the sum that they belong to are past the largest count. -/
def Overflows (d : Draft) (e : Event) : Prop :=
  ∃ n, e.payload = .bytes n ∧
    ((e.stage ∈ [.headerReceived, .inPayload, .inTrailer] ∧
        maxCount < d.record.inBytes + n.toNat) ∨
      (e.stage ∈ [.outPayload, .outTrailer] ∧ maxCount < d.record.outBytes + n.toNat))

/-- The draft that an event leaves behind when it fails.  A header has set all but the sum. -/
def afterFailure (d : Draft) (e : Event) : Draft :=
  if e.stage = .headerReceived then
    { d with record := { d.record with
        endpoint := preferText e.endpoint d.record.endpoint
        prevRoute := preferText e.prevRoute d.record.prevRoute
        transport := some e.transport } }
  else d

variable {d : Draft} {e : Event}

/-! ## Failure -/

theorem apply_of_overflows (h : d.Overflows e) : d.apply e = (d.afterFailure e, .error {}) := by
  obtain ⟨n, hp, ⟨hs, past⟩ | ⟨hs, past⟩⟩ := h
  · have failed : addCounts d.record.inBytes e.payload.byteCount = .error {} := by
      rw [hp]
      exact addCounts_of_lt past
    simp only [List.mem_cons, List.not_mem_nil, or_false] at hs
    rcases hs with hs | hs | hs <;> simp [apply, gatherIn, afterFailure, hs, failed]
  · have failed : addCounts d.record.outBytes e.payload.byteCount = .error {} := by
      rw [hp]
      exact addCounts_of_lt past
    simp only [List.mem_cons, List.not_mem_nil, or_false] at hs
    rcases hs with hs | hs <;> simp [apply, gatherOut, afterFailure, hs, failed]

/-- As long as the sums are within their bounds, the bytes of an event fit if they do not overflow. -/
theorem bytes_of_not_overflows (h : d.Fits []) (ho : ¬ d.Overflows e) :
    d.record.inBytes + e.inboundBytes ≤ maxCount ∧
      d.record.outBytes + e.outboundBytes ≤ maxCount := by
  obtain ⟨hin, hout, -⟩ := fits_nil_iff.mp h
  cases hp : e.payload with
  | none | error =>
    cases hs : e.stage <;>
      simp [Event.inboundBytes, Event.outboundBytes, Payload.byteCount, hs, hp, hin, hout]
  | bytes n =>
    simp only [Overflows, hp, Payload.bytes.injEq, exists_eq_left', not_or, not_and, Nat.not_lt] at ho
    cases hs : e.stage <;>
      simp_all [Event.inboundBytes, Event.outboundBytes, Payload.byteCount]

theorem fits_of_not_overflows (h : d.Fits []) (few : d.seen < maxSeen) (ho : ¬ d.Overflows e) :
    d.Fits [e] := by
  obtain ⟨hin, hout⟩ := bytes_of_not_overflows h ho
  have counted : e.counted ≤ 1 := by
    unfold Event.counted
    split <;> decide
  exact fits_singleton_iff.mpr ⟨hin, hout, by omega⟩

/-- While there are numbers left an event fails exactly when its bytes overflow. -/
theorem apply_eq_error_iff (h : d.Fits []) (few : d.seen < maxSeen) :
    (d.apply e).2 = .error {} ↔ d.Overflows e := by
  constructor
  · intro failed
    by_contra ho
    rw [(apply_of_fits (fits_of_not_overflows h few ho)).1] at failed
    cases failed
  · intro ho
    rw [apply_of_overflows ho]

theorem not_overflows_empty (e : Event) : ¬ Overflows {} e := by
  rintro ⟨n, -, past⟩
  have small : n.toNat ≤ maxCount := Nat.le_sub_one_of_lt n.toNat_lt_size
  rcases past with ⟨-, past⟩ | ⟨-, past⟩ <;> exact absurd past (by simpa using small)

/-! ## Sums stay within their bounds -/

theorem Fits.apply (h : d.Fits []) (e : Event) : (d.apply e).1.Fits [] := by
  have seen : (d.apply e).1.seen ≤ maxSeen := by
    have within := (fits_nil_iff.mp h).2.2
    have counted := seen_apply d e
    omega
  by_cases ho : d.Overflows e
  · rw [apply_of_overflows ho, afterFailure] at seen ⊢
    split
    · exact ⟨h.inbound, h.outbound, h.seen⟩
    · exact h
  · obtain ⟨hin, hout⟩ := bytes_of_not_overflows h ho
    obtain ⟨inBytes, outBytes⟩ := bytes_apply hin hout
    exact fits_nil_iff.mpr ⟨inBytes ▸ hin, outBytes ▸ hout, seen⟩

/-- The sums are within their bounds after any events, failed ones included. -/
theorem Fits.applyAll (h : d.Fits []) (es : List Event) : (d.applyAll es).Fits [] := by
  induction es generalizing d with
  | nil => exact h
  | cons e es ih => exact ih (h.apply e)

end RequestMeter.Draft
