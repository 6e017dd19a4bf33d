import RequestMeter.Event.Json
import RequestMeter.Proofs.Json.Members
import RequestMeter.Proofs.Json.RoundTrip
import RequestMeter.Proofs.Json.Spacing
import RequestMeter.Proofs.Timestamp.Text
import Mathlib.Logic.Relation

/-! # Texts of the same event

An event is told by what its fields hold.  Blanks, the order of the fields, fields that an event does not
have, and fields that hold what is assumed without them say nothing; the fields may also stand in an
array.
-/
namespace RequestMeter

open Json

/-! ## Payloads -/

namespace Payload

theorem ofJson?_object (fs : List (Text × Json)) :
    ofJson? (object fs) = ((object fs).members? fields).bind ofMembers? := rfl

theorem ofMembers?_congr {get other : String → Option Json} (h : ∀ k ∈ fields, get k = other k) :
    ofMembers? get = ofMembers? other := by
  rw [ofMembers?, ofMembers?, h "kind" (by decide), h "value" (by decide)]

theorem ofJson?_rearranged {fs gs : List (Text × Json)} (h : Rearranged fields fs gs) :
    ofJson? (object fs) = ofJson? (object gs) := by
  rw [ofJson?_object, ofJson?_object]
  exact bind_members?_congr h.readable_iff fun readable =>
    ofMembers?_congr fun k hk => h.found_eq readable hk

end Payload

namespace Event

/-! ## What the fields hold -/

def required : List String := ["event_type", "transport", "request_id", "timestamp"]

/-- What the other fields are taken to hold when they are left out. -/
def defaults : List (String × Json) :=
  [("key", str ""), ("prev_route", str ""), ("value", record [("kind", str "none")]), ("status", null)]

def SameField (name : String) (j j' : Option Json) : Prop :=
  if name = "key" ∨ name = "prev_route" then Json.optional "" text? j = Json.optional "" text? j'
  else if name = "value" then
    Json.optional .none Payload.ofJson? j = Json.optional .none Payload.ofJson? j'
  else if name = "status" then Json.optional none status? j = Json.optional none status? j'
  else j = j'

theorem SameField.of_eq {name : String} {j j' : Option Json} (h : j = j') : SameField name j j' := by
  subst h
  unfold SameField
  split_ifs <;> rfl

/-- An event is told by what its fields say. -/
theorem ofMembers?_congr {get other : String → Option Json}
    (h : ∀ k ∈ fields, SameField k (get k) (other k)) : ofMembers? get = ofMembers? other := by
  have stage : get "event_type" = other "event_type" := h "event_type" (by decide)
  have transport : get "transport" = other "transport" := h "transport" (by decide)
  have requestId : get "request_id" = other "request_id" := h "request_id" (by decide)
  have endpoint : Json.optional "" text? (get "key") = Json.optional "" text? (other "key") :=
    h "key" (by decide)
  have prevRoute : Json.optional "" text? (get "prev_route") =
    Json.optional "" text? (other "prev_route") := h "prev_route" (by decide)
  have timestamp : get "timestamp" = other "timestamp" := h "timestamp" (by decide)
  have payload : Json.optional .none Payload.ofJson? (get "value") =
    Json.optional .none Payload.ofJson? (other "value") := h "value" (by decide)
  have status : Json.optional none status? (get "status") =
    Json.optional none status? (other "status") := h "status" (by decide)
  rw [ofMembers?, ofMembers?, stage, transport, requestId, endpoint, prevRoute, timestamp, payload,
    status]

theorem ofMembers?_of_missing {get : String → Option Json} {k : String} (hk : k ∈ required)
    (h : get k = none) : ofMembers? get = none := by
  simp only [required, List.mem_cons, List.not_mem_nil, or_false] at hk
  -- the fields before the missing one may hold anything
  rcases hk with rfl | rfl | rfl | rfl
  all_goals rw [ofMembers?, h]
  · rfl
  · iterate 2 refine Option.bind_eq_none_iff.mpr fun _ _ => ?_
    rfl
  · iterate 5 refine Option.bind_eq_none_iff.mpr fun _ _ => ?_
    rfl
  · iterate 9 refine Option.bind_eq_none_iff.mpr fun _ _ => ?_
    rfl

theorem ofJson?_eq (j : Json) : ofJson? j = (j.members? fields).bind ofMembers? := rfl

/-! ## Changes of the fields -/

/-- A change of the fields of an event that says nothing new: of the fields themselves, of those of
the payload, or a field more that holds what is assumed without it. -/
inductive Edit : List (Text × Json) → List (Text × Json) → Prop where
  | fields {fs gs : List (Text × Json)} (h : Rearranged fields fs gs) : Edit fs gs
  | default {name : String} {j : Json} (h : (name, j) ∈ defaults) {fs : List (Text × Json)}
    (absent : ∀ f ∈ fs, f.1 ≠ some name) : Edit fs ((some name, j) :: fs)
  | payload {ps qs : List (Text × Json)} (h : Rearranged Payload.fields ps qs)
    (fs : List (Text × Json)) :
    Edit ((some "value", object ps) :: fs) ((some "value", object qs) :: fs)

theorem countP_eq_zero {name : String} {fs : List (Text × Json)} (h : ∀ f ∈ fs, f.1 ≠ some name) :
    fs.countP (·.1 = some name) = 0 := by
  rw [List.countP_eq_zero]
  intro f hf
  simpa using h f hf

theorem found_eq_none {name : String} {fs : List (Text × Json)} (h : ∀ f ∈ fs, f.1 ≠ some name) :
    found fs name = none := by
  rw [found, Option.map_eq_none_iff, List.find?_eq_none]
  intro f hf
  simpa using h f hf

theorem sameField_default {name : String} {j : Json} (h : (name, j) ∈ defaults) :
    SameField name none (some j) := by
  simp only [defaults, List.mem_cons, List.not_mem_nil, or_false, Prod.mk.injEq] at h
  rcases h with ⟨rfl, rfl⟩ | ⟨rfl, rfl⟩ | ⟨rfl, rfl⟩ | ⟨rfl, rfl⟩ <;> rfl

theorem Edit.ofJson?_eq {fs gs : List (Text × Json)} (h : Edit fs gs) :
    ofJson? (object fs) = ofJson? (object gs) := by
  rw [Event.ofJson?_eq, Event.ofJson?_eq]
  cases h with
  | fields h =>
    exact bind_members?_congr h.readable_iff fun readable =>
      ofMembers?_congr fun k hk => .of_eq (h.found_eq readable hk)
  | @default name j h fs absent =>
    refine bind_members?_congr (readable_cons_iff (.inr (countP_eq_zero absent))).symm fun _ =>
      ofMembers?_congr fun k _ => ?_
    by_cases same : name = k
    · subst same
      rw [found_cons_self, found_eq_none absent]
      exact sameField_default h
    · rw [found_cons_of_ne same]
      exact .of_eq rfl
  | payload h fs =>
    refine bind_members?_congr (readable_iff_of_names rfl) fun _ => ofMembers?_congr fun k _ => ?_
    by_cases same : "value" = k
    · subst same
      rw [found_cons_self, found_cons_self]
      exact Payload.ofJson?_rearranged h
    · rw [found_cons_of_ne same, found_cons_of_ne same]
      exact .of_eq rfl

/-- Changes that say nothing new one after the other, made or undone, say nothing new. -/
theorem ofJson?_eq_of_eqvGen {fs gs : List (Text × Json)} (h : Relation.EqvGen Edit fs gs) :
    ofJson? (object fs) = ofJson? (object gs) := by
  induction h with
  | rel _ _ edit => exact edit.ofJson?_eq
  | refl => rfl
  | symm _ _ _ ih => exact ih.symm
  | trans _ _ _ _ _ ih ih' => exact ih.trans ih'

/-- A field twice or a required field missing is no event. -/
theorem ofJson?_object_eq_none {fs : List (Text × Json)}
    (h : (∃ k ∈ fields, 1 < fs.countP (·.1 = some k)) ∨ ∃ k ∈ required, ∀ f ∈ fs, f.1 ≠ some k) :
    ofJson? (object fs) = none := by
  rw [ofJson?_eq]
  by_cases readable : Readable fields fs
  · rw [members?_object readable]
    rcases h with ⟨k, hk, twice⟩ | ⟨k, hk, missing⟩
    · have := readable.once k hk
      omega
    · exact ofMembers?_of_missing hk (found_eq_none missing)
  · rw [members?_object_of_not readable]
    rfl

/-- An array says what its items say under the names in their order. -/
theorem ofJson?_array {items : List Json} (h : items.length ≤ fields.length) :
    ofJson? (array items) = ofJson? (record (fields.zip items)) := by
  rw [ofJson?_eq, ofJson?_eq, members?_array h (by decide)]

/-! ## Texts -/

theorem parse?_eq_of_json {s : String} {j : Json} (h : Json.parse? s = some j) :
    parse? s = ofJson? j := by
  rw [parse?, h]
  rfl

/-- What a text says of an event is what its fields say.  Blanks put in between tokens change
nothing.  Two objects that differ by changes that say nothing new are the same event, or neither is
one.  An object with a field twice, or without a required one, is no event.  An array is the event
that its items are under the names in their order. -/
theorem parse?_eq_of_same_fields :
    (∀ s s' : String, Spread s.toList s'.toList → parse? s' = parse? s) ∧
      (∀ (s s' : String) (fs gs : List (Text × Json)), Json.parse? s = some (object fs) →
        Json.parse? s' = some (object gs) → Relation.EqvGen Edit fs gs → parse? s' = parse? s) ∧
      (∀ (s : String) (fs : List (Text × Json)), Json.parse? s = some (object fs) →
        (∃ k ∈ fields, 1 < fs.countP (·.1 = some k)) ∨ (∃ k ∈ required, ∀ f ∈ fs, f.1 ≠ some k) →
        parse? s = none) ∧
      ∀ (s s' : String) (items : List Json) (fs : List (Text × Json)),
        Json.parse? s = some (array items) → items.length ≤ fields.length →
        Json.parse? s' = some (object fs) →
        Relation.EqvGen Edit ((fields.zip items).map fun f => (some f.1, f.2)) fs →
        parse? s' = parse? s := by
  refine ⟨fun s s' spread => ?_, fun s s' fs gs hs hs' same => ?_, fun s fs hs bad => ?_,
    fun s s' items fs hs length hs' same => ?_⟩
  · rw [parse?, parse?, spread.parse?_eq]
  · rw [parse?_eq_of_json hs, parse?_eq_of_json hs', ofJson?_eq_of_eqvGen same]
  · rw [parse?_eq_of_json hs, ofJson?_object_eq_none bad]
  · rw [parse?_eq_of_json hs, parse?_eq_of_json hs', ofJson?_array length]
    exact (ofJson?_eq_of_eqvGen same).symm

/-- An event with nothing but its required fields, as such, with a blank in front, with a further
field before the others, with every field twice, and as an array. -/
theorem parse?_eq_of_same_fields_least :
    let front := [("event_type", str "end"), ("transport", str "rpc"), ("request_id", str "a")]
    let timestamp := [("timestamp", Timestamp.epoch.toJson)]
    let least := front ++ timestamp
    let items := (front ++ [("key", str ""), ("prev_route", str "")] ++ timestamp).map (·.2)
    parse? (record least).compact =
      some { stage := .ended, transport := .rpc, requestId := "a", timestamp := .epoch } ∧
      parse? (String.ofList (' ' :: (record least).write)) = parse? (record least).compact ∧
      parse? (record (("comment", null) :: least)).compact = parse? (record least).compact ∧
      parse? (record (least ++ least)).compact = none ∧
      parse? (record least).compact = parse? (array items).compact := by
  intro front timestamp least items
  have fields : ∀ f ∈ least, Valid f.2 := by
    simp only [least, front, timestamp, List.cons_append, List.nil_append, List.forall_mem_cons]
    exact ⟨.string _, .string _, .string _, .string _, List.forall_mem_nil _⟩
  have more : ∀ f ∈ ("comment", null) :: least, Valid f.2 := List.forall_mem_cons.mpr ⟨.null, fields⟩
  have values : ∀ j ∈ items, Valid j := by
    simp only [items, front, timestamp, List.cons_append, List.nil_append, List.map_cons,
      List.map_nil, List.forall_mem_cons]
    exact ⟨.string _, .string _, .string _, .string _, .string _, .string _, List.forall_mem_nil _⟩
  have once := Json.parse?_compact (valid_record fields)
  have twice := Json.parse?_compact (valid_record (List.forall_mem_append.mpr ⟨fields, fields⟩))
  refine ⟨?_, ?_, ?_, ?_, ?_⟩
  · have moment := Timestamp.read?_write_of_regular (show Timestamp.epoch.Regular by decide)
    rw [parse?_eq_of_json once, ofJson?, members?_record rfl]
    have found : ofMembers? (lookup least) =
        (Timestamp.read? (String.ofList Timestamp.epoch.write).toList).bind fun moment =>
          some { stage := .ended, transport := .rpc, requestId := "a", timestamp := moment } := rfl
    exact found.trans (by rw [String.toList_ofList, moment, Option.bind_some])
  · apply parse?_eq_of_same_fields.1
    rw [Json.compact, String.toList_ofList, String.toList_ofList]
    exact .insert rfl (.same _)
  · exact parse?_eq_of_same_fields.2.1 _ _ _ _ once (Json.parse?_compact (valid_record more))
      (.rel _ _ (.fields (.unknown (by decide) _ _)))
  · exact parse?_eq_of_same_fields.2.2.1 _ _ twice (.inl ⟨"event_type", by decide, by decide⟩)
  · refine parse?_eq_of_same_fields.2.2.2 _ _ _ _ (Json.parse?_compact (.array values)) (by decide)
      once ?_
    let text := fun fs : List (String × Json) => fs.map fun f => ((some f.1, f.2) : Text × Json)
    have order : (text (front ++ [("key", str ""), ("prev_route", str "")] ++ timestamp)).Perm
        (text ([("key", str ""), ("prev_route", str "")] ++ front ++ timestamp)) :=
      (List.perm_append_comm.append_right timestamp).map _
    refine .trans _ _ _ (.rel _ _ (.fields (.permute order))) (.symm _ _ ?_)
    refine .trans _ (text (("prev_route", str "") :: least)) _ (.rel _ _ ?_) (.rel _ _ ?_)
    · exact .default (List.mem_cons_of_mem _ List.mem_cons_self) (by decide)
    · exact .default List.mem_cons_self (by decide)

end Event

end RequestMeter
