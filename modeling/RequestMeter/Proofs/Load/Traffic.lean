import RequestMeter.Load.Traffic
import RequestMeter.Proofs.Record.Bytes
import RequestMeter.Proofs.Tally.Records

/-! # One transaction

A transaction is sent as one header, one begin, one payload in each direction, one trailer and one end,
so its record lacks nothing.  Only the end says whether it failed.
-/
namespace RequestMeter.Traffic

/-- The draws that a worker can make when so many percent of its transactions are to fail. -/
structure Draw.Possible (errorPct : Nat) (d : Draw) : Prop where
  endpoint : d.endpoint ∈ endpoints
  prevRoute : d.prevRoute ∈ prevRoutes
  failed : ∃ percent < 100, d.failed = fails percent errorPct
  header : 120 ≤ d.headerBytes.toNat ∧ d.headerBytes.toNat < 480
  inbound : d.inBytes.toNat < 2048
  outbound : d.endpoint.bodyBytes / 2 ≤ d.outBytes.toNat ∧
    d.outBytes.toNat ≤ d.endpoint.bodyBytes / 2 + d.endpoint.bodyBytes
  trailer : 16 ≤ d.trailerBytes.toNat ∧ d.trailerBytes.toNat < 64

def record (d : Draw) : Record := (Draft.applyAll {} (transaction d)).record

theorem requestId_of_mem_transaction {d : Draw} {e : Event} (h : e ∈ transaction d) :
    e.requestId = d.requestId := by
  simp only [transaction, List.mem_cons, List.not_mem_nil, or_false] at h
  rcases h with rfl | rfl | rfl | rfl | rfl | rfl <;> rfl

/-- The end comes last, and only the end ends a transaction. -/
theorem exists_transaction_eq_concat (d : Draw) :
    ∃ front last, transaction d = front ++ [last] ∧ last.stage = .ended ∧
      ∀ e ∈ front, e.stage ≠ .ended ∧ e.stage ≠ .unknown := by
  refine ⟨(transaction d).take 5, _, rfl, rfl, ?_⟩
  simp [transaction]

section
variable {errorPct : Nat} {d : Draw}

theorem name_ne_empty (h : d.Possible errorPct) : d.endpoint.name ≠ "" := by
  have named : ∀ ep ∈ endpoints, ep.name ≠ "" := by decide
  exact named _ h.endpoint

/-- With no share of failures no transaction fails, and with the whole share every one does. -/
theorem failed_of_possible (h : d.Possible errorPct) :
    (errorPct = 0 → d.failed = false) ∧ (errorPct = 100 → d.failed = true) := by
  obtain ⟨percent, low, failed⟩ := h.failed
  rw [failed, fails]
  constructor
  · rintro rfl
    exact decide_eq_false (Nat.not_lt_zero percent)
  · rintro rfl
    exact decide_eq_true low

/-- The bytes of a transaction are far from the largest count. -/
theorem bytes_le (h : d.Possible errorPct) :
    d.headerBytes.toNat + d.inBytes.toNat ≤ maxCount ∧
      d.outBytes.toNat + d.trailerBytes.toNat ≤ maxCount := by
  have bodies : ∀ ep ∈ endpoints, ep.bodyBytes ≤ 12000 := by decide
  have body := bodies _ h.endpoint
  have header := h.header
  have inbound := h.inbound
  have outbound := h.outbound
  have trailer := h.trailer
  have limit : maxCount = 18446744073709551615 := rfl
  omega

/-- All that the record of a transaction says. -/
theorem record_eq (h : d.Possible errorPct) :
    record d = {
      endpoint := d.endpoint.name
      transport := some d.endpoint.transport
      status := status d.endpoint.transport d.failed
      prevRoute := d.prevRoute
      error := if d.failed then some (errorText d.endpoint.transport) else none
      begun := some (d.clock 1)
      ended := some (d.clock 5)
      firstByte := some (d.clock 3)
      inCapture := some (d.clock 2)
      outCapture := some (d.clock 4)
      inBytes := d.headerBytes.toNat + d.inBytes.toNat
      outBytes := d.outBytes.toNat + d.trailerBytes.toNat } := by
  obtain ⟨inbound, outbound⟩ := bytes_le h
  have inStep := addCounts_of_le inbound
  have outStep := addCounts_of_le outbound
  have header : addCounts 0 d.headerBytes.toNat = .ok d.headerBytes.toNat := by
    rw [addCounts_of_le (by omega), Nat.zero_add]
  have out : addCounts 0 d.outBytes.toNat = .ok d.outBytes.toNat := by
    rw [addCounts_of_le (by omega), Nat.zero_add]
  have name := name_ne_empty h
  cases failed : d.failed <;>
    simp [record, transaction, Draft.apply, Draft.gatherIn, Draft.gatherOut, Draft.gather,
      Draft.maxSeen, Payload.byteCount, Draft.preferText, header, inStep, out, outStep, name, failed]

theorem isError_record (h : d.Possible errorPct) : (record d).isError = d.failed := by
  rw [record_eq h, Record.isError]
  cases d.failed <;> rfl

theorem record_whole (h : d.Possible errorPct) :
    (record d).endpoint = d.endpoint.name ∧ (record d).transport = some d.endpoint.transport ∧
      (record d).latency.isSome ∧ (record d).timeToFirstByte.isSome ∧
      (record d).isError = d.failed ∧
      (record d).status =
        if d.endpoint.transport.hasStatus then some (if d.failed then 503 else 200) else none := by
  refine ⟨?_, ?_, ?_, ?_, isError_record h, ?_⟩
  · rw [record_eq h]
  · rw [record_eq h]
  · rw [record_eq h]
    rfl
  · rw [record_eq h]
    rfl
  · rw [record_eq h]
    rfl

theorem bucket_record (h : d.Possible errorPct) : (record d).bucket = d.endpoint.name := by
  rw [record_eq h, Record.bucket, if_neg (name_ne_empty h)]

def Draw.statusClass (d : Draw) : StatusClass :=
  if d.endpoint.transport.hasStatus then if d.failed then .serverError else .success else .other

theorem statusClass_record (h : d.Possible errorPct) :
    StatusClass.ofStatus (record d).countedStatus = d.statusClass := by
  have classes : StatusClass.ofStatus 503 = .serverError ∧ StatusClass.ofStatus 200 = .success ∧
      StatusClass.ofStatus 0 = .other := by decide
  rw [record_eq h, Record.countedStatus, Draw.statusClass, status]
  cases d.endpoint.transport.hasStatus <;> cases d.failed <;> simp [classes]

theorem name_injective {a b : Endpoint} (ha : a ∈ endpoints) (hb : b ∈ endpoints)
    (same : a.name = b.name) : a = b := by
  have apart : ∀ a ∈ endpoints, ∀ b ∈ endpoints, a.name = b.name → a = b := by decide
  exact apart a ha b hb same

/-- The part of a transaction that was sent adds up to no more than the whole. -/
theorem fits_cut (h : d.Possible errorPct) {es : List Event} (hes : es <+: transaction d) :
    Draft.Fits {} es := by
  obtain ⟨inbound, outbound⟩ := bytes_le h
  have total : Draft.Fits {} (transaction d) := by
    constructor
    · simpa [transaction, Event.inboundBytes, Payload.byteCount] using inbound
    · simpa [transaction, Event.outboundBytes, Payload.byteCount] using outbound
    · simp [transaction, Event.counted, Draft.maxSeen]
  exact total.of_sublist hes.sublist

end

end RequestMeter.Traffic
