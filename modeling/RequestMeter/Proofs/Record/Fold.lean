import RequestMeter.Proofs.Record.Overflow
import Mathlib.Data.List.Induction

/-! # What a draft says of its events

Every field of a draft is defined by the list of the events that it has gathered: sums of bytes, the
last or the first of what events of some stages carry, and the number of known events.  Events of all
other stages make no difference to the field, and neither does the end of the request.
-/
namespace RequestMeter

/-! ## What events carry -/

def Event.ofStages (stages : List Stage) (es : List Event) : List Event :=
  es.filter (·.stage ∈ stages)

def Event.lastOf? {α : Type} (value? : Event → Option α) (es : List Event) : Option α :=
  (es.filterMap value?).getLast?

/-- The last of some texts that is not empty. -/
def Event.lastText (text : Event → String) (es : List Event) : String :=
  ((es.map text).filter (· ≠ "")).getLast?.getD ""

def Payload.error? : Payload → Option String
  | .error text => some text
  | .none | .bytes _ => .none

namespace Draft

open Event

/-- The draft that has gathered some events. -/
def ofEvents (es : List Event) : Draft where
  record := {
    endpoint := lastText (·.endpoint) (ofStages [.headerReceived] es)
    transport := ((ofStages [.headerReceived] es).getLast?.or
      (ofStages [.begun, .ended] es).head?).map (·.transport)
    status := lastOf? (·.status) (ofStages [.ended] es)
    prevRoute := lastText (·.prevRoute) (ofStages [.headerReceived] es)
    error := lastOf? (·.payload.error?) (ofStages [.ended] es)
    begun := (ofStages [.begun] es).getLast?.map (·.timestamp)
    ended := (ofStages [.ended] es).getLast?.map (·.timestamp)
    firstByte := (ofStages [.outPayload] es).head?.map (·.timestamp)
    inCapture := (ofStages [.inPayload, .inTrailer] es).getLast?.map (·.timestamp)
    outCapture := (ofStages [.outPayload, .outTrailer] es).getLast?.map (·.timestamp)
    inBytes := ((ofStages [.headerReceived, .inPayload, .inTrailer] es).map (·.payload.byteCount)).sum
    outBytes := ((ofStages [.outPayload, .outTrailer] es).map (·.payload.byteCount)).sum }
  seen := es.countP (·.stage ≠ .unknown)

/-! ## One more event -/

@[simp] theorem ofStages_concat (stages : List Stage) (es : List Event) (e : Event) :
    ofStages stages (es ++ [e]) =
      if e.stage ∈ stages then ofStages stages es ++ [e] else ofStages stages es := by
  by_cases h : e.stage ∈ stages <;> simp [ofStages, h]

@[simp] theorem lastOf?_concat {α : Type} (value? : Event → Option α) (es : List Event) (e : Event) :
    lastOf? value? (es ++ [e]) = (value? e).or (lastOf? value? es) := by
  cases h : value? e <;> simp [lastOf?, h]

@[simp] theorem lastText_concat (text : Event → String) (es : List Event) (e : Event) :
    lastText text (es ++ [e]) = preferText (text e) (lastText text es) := by
  by_cases h : text e = "" <;> simp [lastText, preferText, h]

theorem ofEvents_nil : ofEvents [] = {} := rfl

/-- The sums of a list that can be gathered: bytes are 64-bit counts, the number of events has 32
bits. -/
structure Gatherable (es : List Event) : Prop where
  inbound : (ofEvents es).record.inBytes < UInt64.size
  outbound : (ofEvents es).record.outBytes < UInt64.size
  seen : (ofEvents es).seen < UInt32.size

/-- More events make neither a sum nor the number of events smaller. -/
theorem Gatherable.of_append {es fs : List Event} (h : Gatherable (es ++ fs)) : Gatherable es := by
  obtain ⟨inbound, outbound, seen⟩ := h
  simp only [ofEvents, ofStages, List.filter_append, List.map_append, List.sum_append,
    List.countP_append] at inbound outbound seen
  constructor <;> (simp only [ofEvents, ofStages]; omega)

/-- An event that fits is gathered into the draft of the events before it. -/
theorem apply_ofEvents {es : List Event} {e : Event} (h : Gatherable (es ++ [e])) :
    (ofEvents es).apply e = (ofEvents (es ++ [e]), .ok (decide (e.stage = .ended))) := by
  have inbound : (ofEvents (es ++ [e])).record.inBytes ≤ maxCount := Nat.le_sub_one_of_lt h.inbound
  have outbound : (ofEvents (es ++ [e])).record.outBytes ≤ maxCount :=
    Nat.le_sub_one_of_lt h.outbound
  have few (known : e.stage ≠ .unknown) : (ofEvents es).seen < maxSeen := by
    have counted : (ofEvents (es ++ [e])).seen = (ofEvents es).seen + 1 := by
      simp [ofEvents, known]
    exact Nat.lt_sub_of_add_lt (counted ▸ h.seen)
  cases hs : e.stage with
  | headerReceived | inPayload | inTrailer =>
    have sum := addCounts_of_le (by simpa [ofEvents, hs] using inbound)
    have number := few (by simp [hs])
    simp_all [apply, gatherIn, gather, ofEvents]
  | outPayload | outTrailer =>
    have sum := addCounts_of_le (by simpa [ofEvents, hs] using outbound)
    have number := few (by simp [hs])
    simp_all [apply, gatherOut, gather, ofEvents]
  | ended =>
    have number := few (by simp [hs])
    -- Only here is the payload read for an error.
    cases hp : e.payload <;> simp_all [apply, gather, ofEvents, Payload.error?]
  | begun =>
    have number := few (by simp [hs])
    simp_all [apply, gather, ofEvents]
  | unknown => simp [apply, ofEvents, hs]

/-! ## Many events -/

theorem applyAll_of_gatherable {es : List Event} (h : Gatherable es) :
    applyAll {} es = ofEvents es := by
  induction es using List.reverseRecOn with
  | nil => rw [applyAll_nil, ofEvents_nil]
  | append_singleton es e ih =>
    rw [applyAll_append, ih h.of_append, applyAll_cons, applyAll_nil, apply_ofEvents h]

/-- Each of some events is gathered into the draft of those before it. -/
theorem apply_among {before after : List Event} {e : Event}
    (h : Gatherable (before ++ [e] ++ after)) :
    (applyAll {} before).apply e = (ofEvents (before ++ [e]), .ok (decide (e.stage = .ended))) := by
  rw [applyAll_of_gatherable h.of_append.of_append, apply_ofEvents h.of_append]

/-- Events whose inbound and outbound bytes add up to 64-bit counts, and whose number has 32 bits
without the unknown ones, leave the draft that their list defines, whatever their stages and their
order.  None of them fails, and exactly the ends say that they ended the request, wherever they
come. -/
theorem applyAll_eq_ofEvents (es : List Event)
    (inbound : (ofEvents es).record.inBytes < UInt64.size)
    (outbound : (ofEvents es).record.outBytes < UInt64.size)
    (seen : (ofEvents es).seen < UInt32.size) :
    applyAll {} es = ofEvents es ∧
    ∀ before e after, es = before ++ e :: after →
      ((applyAll {} before).apply e).2 = .ok (decide (e.stage = .ended)) := by
  have gatherable : Gatherable es := ⟨inbound, outbound, seen⟩
  refine ⟨applyAll_of_gatherable gatherable, fun before e after split => ?_⟩
  rw [List.append_cons] at split
  subst split
  rw [apply_among gatherable]

def beginning : Event :=
  { stage := .begun, transport := .rpc, requestId := "a", timestamp := .epoch }

/-- One event more than there are numbers for. -/
def countless : List Event := List.replicate (maxSeen + 1) beginning

/-- Both sums of bytes are zero, and yet the last event fails, and the number stays behind. -/
theorem ofEvents_ne_applyAll_countless :
    (ofEvents countless).record.inBytes < UInt64.size ∧
    (ofEvents countless).record.outBytes < UInt64.size ∧
    (ofEvents countless).seen = UInt32.size ∧ (applyAll {} countless).seen = UInt32.size - 1 ∧
    ∃ before e, countless = before ++ [e] ∧ e.stage = .begun ∧
      ((applyAll {} before).apply e).2 = .error {} := by
  have last : countless = List.replicate maxSeen beginning ++ [beginning] := List.replicate_succ'
  have begins : beginning.stage = .begun := rfl
  have full : (applyAll {} (List.replicate maxSeen beginning)).seen = maxSeen :=
    seen_applyAll_replicate begins (Nat.le_refl _)
  obtain ⟨failed, stays⟩ := apply_of_seen_eq full (.inl begins)
  have number : (ofEvents countless).seen = maxSeen + 1 := by
    rw [ofEvents, countless, List.countP_replicate]
    rfl
  refine ⟨?_, ?_, number.trans (by decide), ?_, _, _, last, begins, failed⟩
  · simp [countless, beginning, ofEvents, ofStages]
  · simp [countless, beginning, ofEvents, ofStages]
  · rw [last, applyAll_append, applyAll_cons, applyAll_nil, stays, maxSeen]

/-- A request that begins and ends twice.  Its first begin carries bytes, its second header comes
after the first end and names no endpoint, and one stage is not known. -/
def tangled : List Event :=
  let time (second : Nat) : Timestamp := (Timestamp.ofParts? 0 second 0).getD .epoch
  let event (stage : Stage) (second : Nat) (transport : Transport) (payload : Payload) : Event :=
    { stage, transport, requestId := "a", timestamp := time second, payload }
  [ event .begun 9 .rpc (.bytes 1000),
    { event .headerReceived 1 .http (.bytes 5) with endpoint := "/a", prevRoute := "/home" },
    event .outPayload 4 .rpc (.bytes 20),
    { event .ended 8 .rpcTls (.error "late") with status := some 504 },
    event .unknown 40 .rpc (.error "odd"),
    { event .headerReceived 2 .https (.error "odd") with prevRoute := "/next" },
    event .outPayload 3 .rpc .none,
    event .begun 7 .rpc .none,
    event .inTrailer 6 .rpc (.bytes 0xFFFFFFFFFFFFFFF0),
    event .outTrailer 5 .rpc (.bytes 2),
    event .ended 10 .rpc (.bytes 9) ]

theorem applyAll_eq_ofEvents_tangled :
    (ofEvents tangled).record.inBytes = 0xFFFFFFFFFFFFFFF5 ∧
    (ofEvents tangled).record.inBytes < UInt64.size ∧
    (ofEvents tangled).record.outBytes < UInt64.size ∧ (ofEvents tangled).seen < UInt32.size ∧
    let d := applyAll {} tangled
    d.seen = 10 ∧ d.record.endpoint = "/a" ∧ d.record.prevRoute = "/next" ∧
    d.record.transport = some .https ∧ d.record.status = some 504 ∧ d.record.error = some "late" ∧
    d.record.begun.map (·.second) = some 7 ∧ d.record.ended.map (·.second) = some 10 ∧
    d.record.firstByte.map (·.second) = some 4 ∧ d.record.outCapture.map (·.second) = some 5 ∧
    ((applyAll {} (tangled.take 3)).apply (tangled.get ⟨3, by decide⟩)).2 = .ok true := by
  have inbound : (ofEvents tangled).record.inBytes < UInt64.size := by decide
  have outbound : (ofEvents tangled).record.outBytes < UInt64.size := by decide
  have seen : (ofEvents tangled).seen < UInt32.size := by decide
  obtain ⟨draft, step⟩ := applyAll_eq_ofEvents tangled inbound outbound seen
  refine ⟨by decide, inbound, outbound, seen, ?_⟩
  simp only [draft]
  exact ⟨by decide, by decide, by decide, by decide, by decide, by decide, by decide, by decide,
    by decide, by decide, step _ _ (tangled.drop 4) (by decide)⟩

end Draft

end RequestMeter
