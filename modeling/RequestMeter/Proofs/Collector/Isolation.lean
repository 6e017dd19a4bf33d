import RequestMeter.Proofs.Collector.Conservation

/-! # Isolation of requests

What a collector knows of one request depends on the events of that request alone, in their order.  So
two orders of the same requests leave the same requests in flight, the same tally and the same records;
only which records are still cached depends on the order in which requests end.
-/
namespace RequestMeter.Collector

def eventsOf (id : String) (es : List Event) : List Event := es.filter (·.requestId = id)

def observing (es : List Event) : List Step := es.map .observe

/-- The requests that end, in the order of their ends; an id is repeated as often as it ends. -/
def endedIds (es : List Event) : List String := (es.filter (·.stage = .ended)).map (·.requestId)

/-- What the ends of some events complete after others: the id of each end, and its record, if the
end can be counted. -/
def endingsFrom (before : List Event) : List Event → List (String × Option Record)
  | [] => []
  | e :: rest =>
    (if e.stage = .ended then [(e.requestId, completion? (observing before) (.observe e))] else []) ++
      endingsFrom (before ++ [e]) rest

def endings (es : List Event) : List (String × Option Record) := endingsFrom [] es

theorem eventsOf_concat (id : String) (es : List Event) (e : Event) :
    eventsOf id (es ++ [e]) = eventsOf id es ++ if e.requestId = id then [e] else [] := by
  rw [eventsOf, List.filter_append]
  by_cases h : e.requestId = id <;> simp [eventsOf, h]

theorem observing_concat (es : List Event) (e : Event) :
    observing (es ++ [e]) = observing es ++ [.observe e] := List.map_append

theorem endingsFrom_append (before xs ys : List Event) :
    endingsFrom before (xs ++ ys) = endingsFrom before xs ++ endingsFrom (before ++ xs) ys := by
  induction xs generalizing before with
  | nil => simp [endingsFrom]
  | cons e xs ih => simp [endingsFrom, ih]

theorem endings_concat (es : List Event) (e : Event) :
    endings (es ++ [e]) = endings es ++
      if e.stage = .ended then [(e.requestId, completion? (observing es) (.observe e))] else [] := by
  simp [endings, endingsFrom_append, endingsFrom]

theorem map_fst_endings (es : List Event) : (endings es).map (·.1) = endedIds es := by
  induction es using List.reverseRecOn with
  | nil => rfl
  | append_singleton es e ih =>
    rw [endings_concat, List.map_append, ih]
    by_cases h : e.stage = .ended <;> simp [endedIds, h]

theorem filterMap_snd_endings (es : List Event) :
    (endings es).filterMap (·.2) = completed (observing es) := by
  induction es using List.reverseRecOn with
  | nil => rfl
  | append_singleton es e ih =>
    rw [endings_concat, List.filterMap_append, ih, observing_concat, completed_concat]
    by_cases h : e.stage = .ended
    · rw [if_pos h]
      cases completion? (observing es) (.observe e) <;> simp
    · simp [h, completion?, Draft.completes]

/-! ## One request -/

/-- Events of other requests neither end a request nor belong to it. -/
theorem segment_eventsOf (id : String) (es : List Event) :
    segment id (observing (eventsOf id es)) = segment id (observing es) := by
  induction es using List.reverseRecOn with
  | nil => rfl
  | append_singleton es e ih =>
    rw [eventsOf_concat, observing_concat, segment_concat]
    by_cases h : e.requestId = id
    · rw [if_pos h, observing_concat, segment_concat, ih]
    · simp [h, ih, Step.gather]

/-- The records of one request are those of a run that observes its events only. -/
theorem filter_endings (id : String) (es : List Event) :
    (endings es).filter (·.1 = id) = endings (eventsOf id es) := by
  induction es using List.reverseRecOn with
  | nil => rfl
  | append_singleton es e ih =>
    rw [endings_concat, List.filter_append, ih, eventsOf_concat]
    by_cases h : e.requestId = id
    · subst h
      rw [if_pos rfl, endings_concat, completion?, completion?, segment_eventsOf]
      by_cases he : e.stage = .ended <;> simp [he]
    · by_cases he : e.stage = .ended <;> simp [h, he]

/-! ## Lists with the same part for every key -/

section Keyed

variable {α : Type} {l m : List (String × α)}

theorem perm_of_filter_eq (h : ∀ k, l.filter (·.1 = k) = m.filter (·.1 = k)) : l.Perm m := by
  classical
  refine List.perm_iff_count.mpr fun a => ?_
  have part (n : List (String × α)) : n.count a = (n.filter (·.1 = a.1)).count a :=
    (List.count_filter (by simp)).symm
  rw [part l, part m, h]

theorem eq_of_filter_eq (hk : l.map (·.1) = m.map (·.1))
    (h : ∀ k, l.filter (·.1 = k) = m.filter (·.1 = k)) : l = m := by
  induction l generalizing m with
  | nil => exact (List.map_eq_nil_iff.mp hk.symm).symm
  | cons a l ih =>
    cases m with
    | nil => cases hk
    | cons b m =>
      rw [List.map_cons, List.map_cons, List.cons.injEq] at hk
      have head := h a.1
      rw [List.filter_cons_of_pos (by simp), List.filter_cons_of_pos (by simp [hk.1]),
        List.cons.injEq] at head
      rw [head.1, ih hk.2]
      intro k
      have tail := h k
      rw [head.1] at tail
      by_cases hb : b.1 = k <;> simpa [hb] using tail

end Keyed

/-! ## Two orders of the same requests -/

variable {capacity : Nat} {hc : 0 < capacity} {es fs : List Event}

theorem filter_endings_eq (h : ∀ id, eventsOf id es = eventsOf id fs) (id : String) :
    (endings es).filter (·.1 = id) = (endings fs).filter (·.1 = id) := by
  rw [filter_endings, filter_endings, h]

theorem completed_perm (h : ∀ id, eventsOf id es = eventsOf id fs) :
    (completed (observing es)).Perm (completed (observing fs)) := by
  rw [← filterMap_snd_endings, ← filterMap_snd_endings]
  exact (perm_of_filter_eq (filter_endings_eq h)).filterMap _

theorem completed_eq (h : ∀ id, eventsOf id es = eventsOf id fs) (ends : endedIds es = endedIds fs) :
    completed (observing es) = completed (observing fs) := by
  rw [← filterMap_snd_endings, ← filterMap_snd_endings,
    eq_of_filter_eq (by rw [map_fst_endings, map_fst_endings, ends]) (filter_endings_eq h)]

theorem inFlight_eq (h : ∀ id, eventsOf id es = eventsOf id fs) :
    ((fresh capacity hc).run (observing es)).inFlight =
      ((fresh capacity hc).run (observing fs)).inFlight := by
  ext id : 1
  rw [get?_inFlight_run, get?_inFlight_run, openDraft?, openDraft?, ← segment_eventsOf id es, h,
    segment_eventsOf]

theorem tally_eq (h : ∀ id, eventsOf id es = eventsOf id fs) :
    ((fresh capacity hc).run (observing es)).tally =
      ((fresh capacity hc).run (observing fs)).tally := by
  have perm := completed_perm h
  rw [(books_run (observing es)).tally, (books_run (observing fs)).tally, Tally.ofRecords_perm perm,
    perm.length_eq]

/-- Two runs that agree on the events of every request, failed events included, leave the same
requests in flight and the same tally, and complete the same records, of which the caches hold the
newest; if the same requests end in the same order, the caches hold the same records in the same
order.  What is in flight for one request and the records completed for it, in their order, are those
of a run that observes nothing else. -/
theorem run_independent_of_interleaving (capacity : Nat) (hc : 0 < capacity) (es fs : List Event)
    (h : ∀ id, eventsOf id es = eventsOf id fs) :
    let c := (fresh capacity hc).run (observing es)
    let d := (fresh capacity hc).run (observing fs)
    c.inFlight = d.inFlight ∧ c.tally = d.tally ∧
    (completed (observing es)).Perm (completed (observing fs)) ∧
    c.cache.toList = (completed (observing es)).rtake capacity ∧
    (endedIds es = endedIds fs → c.cache.toList = d.cache.toList) ∧
    ∀ id,
      c.inFlight.get? id = ((fresh capacity hc).run (observing (eventsOf id es))).inFlight.get? id ∧
      ((endings es).filter (·.1 = id)).filterMap (·.2) = completed (observing (eventsOf id es)) := by
  refine ⟨inFlight_eq h, tally_eq h, completed_perm h, toList_cache_run _, ?_, ?_⟩
  · intro ends
    rw [toList_cache_run, toList_cache_run, completed_eq h ends]
  · intro id
    constructor
    · rw [get?_inFlight_run, get?_inFlight_run, openDraft?, openDraft?, segment_eventsOf]
    · rw [filter_endings, filterMap_snd_endings]

/-- A payload of the request that overflows. -/
def payload (bytes : UInt64) : Event :=
  { stage := .inPayload, transport := .https, requestId := "a", timestamp := .epoch
    payload := .bytes bytes }

def plain (stage : Stage) (id : String) : Event :=
  { stage, transport := .http, requestId := id, timestamp := .epoch }

/-- Two requests at the same time; the second payload of the first one does not fit. -/
def entangled : List Event :=
  [payload 0xFFFFFFFFFFFFFFFF, plain .begun "b", payload 1, plain .ended "b", plain .ended "a"]

def consecutive : List Event :=
  [plain .begun "b", plain .ended "b", payload 0xFFFFFFFFFFFFFFFF, payload 1, plain .ended "a"]

theorem run_independent_of_interleaving_entangled :
    0 < 1 ∧ (∀ id, eventsOf id entangled = eventsOf id consecutive) ∧
    let c := (fresh 1 Nat.one_pos).run (observing entangled)
    let d := (fresh 1 Nat.one_pos).run (observing consecutive)
    c.tally = d.tally ∧ c.tally.evicted = 1 ∧ c.cache.toList = d.cache.toList ∧
    c.cache.toList.map (·.inBytes) = [maxCount] := by
  have same : ∀ id, eventsOf id entangled = eventsOf id consecutive := by
    intro id
    by_cases ha : "a" = id
    · subst ha
      decide
    · by_cases hb : "b" = id
      · subst hb
        decide
      · simp [eventsOf, entangled, consecutive, payload, plain, ha, hb]
  obtain ⟨-, tally, -, cache, traversal, -⟩ :=
    run_independent_of_interleaving 1 Nat.one_pos entangled consecutive same
  exact ⟨Nat.one_pos, same, tally, by decide, traversal (by decide),
    (congrArg (List.map Record.inBytes) cache).trans (by decide)⟩

end RequestMeter.Collector
