import RequestMeter.Event.Json
import RequestMeter.Proofs.Json.Members
import RequestMeter.Proofs.Json.RoundTrip
import RequestMeter.Proofs.Timestamp.Text

/-! # Reading events back

An event that was written is read back as it was, but for a leap second before the end of a minute,
which no text names.  So the text that an accepted text is written as again says the same, and is left
alone from then on.
-/
namespace RequestMeter

open Json

theorem Payload.ofJson?_toJson (p : Payload) : Payload.ofJson? p.toJson = some p := by
  cases p with
  | none => rfl
  | bytes n =>
    have bound : n.toNat ≤ maxCount := by
      have := n.toNat_lt
      simp only [maxCount, UInt64.size]
      omega
    have members : (Payload.bytes n).toJson.members? fields =
        some (lookup [("kind", str "bytes"), ("value", nat n.toNat)]) := members?_record rfl
    have count : (nat n.toNat).count? = some n.toNat := by
      simp [nat, count?, natural?, bound]
    change ((Payload.bytes n).toJson.members? fields).bind ofMembers? = _
    rw [members]
    change (nat n.toNat).count?.map _ = _
    rw [count, Option.map_some, UInt64.ofNat_toNat]
  | error text => rfl

def Json.ofStatus : Option UInt16 → Json
  | some s => nat s.toNat
  | none => null

theorem Json.status?_ofStatus (s : Option UInt16) : (ofStatus s).status? = some s := by
  cases s with
  | none => rfl
  | some s =>
    have bound : s.toNat ≤ 65535 := by
      have := s.toNat_lt
      omega
    simp [ofStatus, nat, status?, natural?, bound]

namespace Event

def written (e : Event) : List (String × Json) :=
  [("event_type", str e.stage.label), ("transport", str e.transport.label),
    ("request_id", str e.requestId), ("key", str e.endpoint), ("prev_route", str e.prevRoute),
    ("timestamp", e.timestamp.toJson), ("value", e.payload.toJson), ("status", ofStatus e.status)]

theorem toJson_eq (e : Event) : e.toJson = record e.written := by
  rw [toJson, written]
  cases e.status <;> rfl

/-- The event with a leap second before the end of a minute carried into the next second. -/
def carried (e : Event) : Event := { e with timestamp := e.timestamp.carried }

theorem carried_eq_self_iff {e : Event} : e.carried = e ↔ e.timestamp.Regular := by
  rw [← Timestamp.carried_eq_self_iff]
  constructor
  · exact fun same => congrArg Event.timestamp same
  · intro same
    rw [carried, same]

theorem ofMembers?_written (e : Event) : ofMembers? (lookup e.written) = some e.carried := by
  have payload := e.payload.ofJson?_toJson
  have status := Json.status?_ofStatus e.status
  simp only [ofMembers?, lookup, written, List.find?_cons]
  simp [name?, text?, Json.optional, str, Timestamp.toJson, Timestamp.read?_write, payload, status,
    Stage.ofLabel_label, Transport.ofLabel?_label, carried]

theorem ofJson?_toJson (e : Event) : ofJson? e.toJson = some e.carried := by
  have members : e.toJson.members? fields = some (lookup e.written) :=
    e.toJson_eq ▸ members?_record rfl
  rw [ofJson?, members]
  exact e.ofMembers?_written

theorem regular_of_ofMembers? {get : String → Option Json} {e : Event}
    (h : ofMembers? get = some e) : e.timestamp.Regular := by
  rw [ofMembers?] at h
  -- the eleven parts before the timestamp is read
  iterate 11 obtain ⟨_, -, h⟩ := Option.bind_eq_some_iff.mp h
  obtain ⟨timestamp, read, h⟩ := Option.bind_eq_some_iff.mp h
  obtain ⟨_, -, h⟩ := Option.bind_eq_some_iff.mp h
  obtain ⟨_, -, h⟩ := Option.bind_eq_some_iff.mp h
  obtain rfl := Option.some.inj h
  exact Timestamp.regular_of_read? read

/-! ## Texts -/

theorem valid_toJson (e : Event) : Valid e.toJson := by
  have payload : Valid e.payload.toJson := by
    cases e.payload with
    | none => exact valid_record (List.forall_mem_singleton.mpr (.string _))
    | bytes n =>
      exact valid_record (List.forall_mem_cons.mpr
        ⟨.string _, List.forall_mem_singleton.mpr (valid_nat _)⟩)
    | error text =>
      exact valid_record (List.forall_mem_cons.mpr
        ⟨.string _, List.forall_mem_singleton.mpr (.string _)⟩)
  have status : Valid (ofStatus e.status) := by
    cases e.status with
    | none => exact .null
    | some s => exact valid_nat _
  rw [toJson_eq, written]
  apply valid_record
  simp only [List.forall_mem_cons]
  exact ⟨.string _, .string _, .string _, .string _, .string _, .string _, payload, status,
    List.forall_mem_nil _⟩

theorem parse?_compact (e : Event) : parse? e.compact = some e.carried := by
  rw [parse?, compact, Json.parse?_compact e.valid_toJson]
  exact e.ofJson?_toJson

/-- The event of a text has no leap second before the end of a minute. -/
theorem regular_of_parse? {s : String} {e : Event} (h : parse? s = some e) : e.timestamp.Regular := by
  obtain ⟨j, -, h⟩ := Option.bind_eq_some_iff.mp h
  obtain ⟨get, -, h⟩ := Option.bind_eq_some_iff.mp h
  exact regular_of_ofMembers? h

/-- The text that the event of an accepted text is written as. -/
def reencode? (s : String) : Option String := (parse? s).map compact

/-- Reading undoes writing for every event whose timestamp is not in a leap second before the end of
a minute; such a second is read back as the one after it.  Writing again the event of a text makes a
text with the same event, and doing so once more changes nothing.  The moments that an event can
have are those of all dates in the years -262143 to 262142, with a leap second at every second. -/
theorem parse?_compact_and_reencode? :
    (∀ e : Event, parse? e.compact = some e ↔ e.timestamp.Regular) ∧
      (∀ e : Event, parse? e.compact = some { e with timestamp := e.timestamp.carried }) ∧
      (∀ s : String,
        (reencode? s).bind parse? = parse? s ∧ (reencode? s).bind reencode? = reencode? s) ∧
      ∀ (date : Date) (second nano : Nat),
        (∃ t : Timestamp, Date.ofDayNumber t.day = date ∧ t.second = second ∧ t.nano = nano) ↔
          (date.isValid = true ∧ -262143 ≤ date.year ∧ date.year ≤ 262142) ∧ second < 86400 ∧
            nano < 2000000000 := by
  refine ⟨fun e => ?_, parse?_compact, fun s => ?_, fun date second nano => Timestamp.exists_iff⟩
  · rw [e.parse?_compact, Option.some.injEq, carried_eq_self_iff]
  · unfold reencode?
    cases read : parse? s with
    | none => exact ⟨rfl, rfl⟩
    | some e =>
      have back : parse? e.compact = some e := by
        rw [e.parse?_compact, carried_eq_self_iff.mpr (regular_of_parse? read)]
      exact ⟨back, by rw [Option.map_some, Option.bind_some, back, Option.map_some]⟩

/-- A leap second in the middle of a minute: four seconds after 23:56 on day 0, and a third. -/
def between : Event :=
  { stage := .begun, transport := .http, requestId := "a"
    timestamp := (Timestamp.ofParts? 0 86164 1333333333).getD .epoch }

/-- It is read back as the second after it. -/
theorem parse?_compact_between :
    parse? between.compact ≠ some between ∧
      ∃ e, parse? between.compact = some e ∧ e.timestamp.second = 86165 ∧
        e.timestamp.nano = 333333333 := by
  rw [between.parse?_compact]
  refine ⟨fun same => ?_, _, rfl, by decide, by decide⟩
  have second := congrArg (fun e : Event => e.timestamp.second) (Option.some.inj same)
  revert second
  decide

end Event

end RequestMeter
