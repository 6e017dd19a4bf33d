import RequestMeter.Proofs.Collector.Conservation
import RequestMeter.Proofs.Record.Overflow

/-! # Events that fail

An event whose bytes do not fit fails before anything but its own draft has changed, and its request
stays in flight.  So the cache, the tally and all other requests are as they were, and the next end of
the request completes it like any other.
-/
namespace RequestMeter.Collector

variable {c : Collector} {e : Event}

/-! ## The step that fails -/

/-- Only a request in flight has bytes that an event can overflow. -/
theorem get?_inFlight_of_overflows (h : (c.draft e.requestId).Overflows e) :
    c.inFlight.get? e.requestId = some (c.draft e.requestId) := by
  cases hd : c.inFlight.get? e.requestId with
  | none =>
    rw [draft, hd] at h
    exact absurd h (Draft.not_overflows_empty e)
  | some d => rw [draft, hd, Option.getD_some]

theorem observe_of_overflows (h : (c.draft e.requestId).Overflows e) :
    c.observe e =
      { next := { c with
          inFlight := c.inFlight.insert e.requestId ((c.draft e.requestId).afterFailure e) }
        done := .error {} } := by
  have known : e.stage ≠ .unknown ∧ e.stage ≠ .ended := by
    obtain ⟨-, -, ⟨hs, -⟩ | ⟨hs, -⟩⟩ := h <;>
    · constructor
      · intro stage
        simp [stage] at hs
      · intro stage
        simp [stage] at hs
  have stays : (c.draft e.requestId).completes e = false := by simp [Draft.completes, known.2]
  rw [c.observe_of_open known.1 stays, Draft.apply_of_overflows h]

/-- A failure leaves the draft of its own request in flight, and the other drafts as they are. -/
theorem get?_inFlight_observe_of_overflows (h : (c.draft e.requestId).Overflows e) (id : String) :
    (c.observe e).next.inFlight.get? id =
      if id = e.requestId then some ((c.draft e.requestId).afterFailure e)
      else c.inFlight.get? id := by
  rw [observe_of_overflows h]
  exact Table.get?_insert _ _ _ _

theorem get?_inFlight_observe_eq_none_iff (h : (c.draft e.requestId).Overflows e) (id : String) :
    (c.observe e).next.inFlight.get? id = none ↔ c.inFlight.get? id = none := by
  rw [get?_inFlight_observe_of_overflows h]
  split
  · next same =>
    rw [same, get?_inFlight_of_overflows h]
    simp
  · rfl

/-! ## The steps after it -/

theorem draft_step (c : Collector) {s : Step} {id : String} (h : s.closes id = false) :
    (c.step s).draft id = (c.draft id).applyAll (s.event? id).toList := by
  cases s with
  | discard => cases h
  | observe e =>
    simp only [draft, get?_inFlight_step, Step.advance, Step.event?]
    by_cases known : e.requestId = id ∧ e.stage ≠ .unknown
    · have other : e.stage ≠ .ended := fun he => by simp [Step.closes, known.1, he] at h
      have stays : ((c.inFlight.get? id).getD {}).completes e = false := by
        simp [Draft.completes, other]
      simp [known, stays]
    · simp [known]

theorem draft_run_of_open {steps : List Step} {id : String}
    (h : ∀ s ∈ steps, s.closes id = false) :
    (c.run steps).draft id = (c.draft id).applyAll (steps.filterMap (Step.event? id)) := by
  induction steps generalizing c with
  | nil => rfl
  | cons s steps ih =>
    rw [List.forall_mem_cons] at h
    change ((c.step s).run steps).draft id = _
    rw [ih h.2, draft_step c h.1, ← Draft.applyAll_append]
    cases hs : s.event? id <;> simp [hs]

theorem total_retire (c : Collector) (r : Record) :
    (c.retire r).1.tally.total = c.tally.total + 1 := by
  unfold retire
  split <;> rfl

/-- The end of a request completes one record, whatever came before it, if it can be counted. -/
theorem observe_end (h : (c.draft e.requestId).completes e = true) :
    let o := c.observe e
    o.done = .ok true ∧ o.next.tally.total = c.tally.total + 1 ∧
      o.next.cache.toList =
        (c.cache.toList ++ [((c.draft e.requestId).apply e).1.record]).rtake c.cache.capacity ∧
      o.next.inFlight.get? e.requestId = none := by
  intro o
  have ended := c.observe_of_completes h
  have next : o.next = _ := congrArg Observation.next ended
  have total := total_retire { c with inFlight := c.inFlight.erase e.requestId }
    ((c.draft e.requestId).apply e).1.record
  refine ⟨congrArg Observation.done ended, ?_, ?_, ?_⟩
  · rw [next]
    exact total
  · rw [next, cache_retire, Ring.toList_store]
  · rw [next, inFlight_retire, Table.get?_erase,
      if_pos rfl]

/-! ## Reachable states -/

theorem fits_draft_run {capacity : Nat} {hc : 0 < capacity} (steps : List Step) (id : String) :
    (((fresh capacity hc).run steps).draft id).Fits [] := by
  rw [draft_run]
  exact Draft.Fits.empty.applyAll _

/-- In every reachable state in which fewer events of a request were counted than can be, the next
one fails exactly when its bytes overflow the sum they belong to in the draft.  After a failure the
cache, the tally, the log and all other requests are as they were, the same requests are in flight,
and the draft is the one before but for what a header sets besides its bytes.  Whatever comes then,
the next end of the request, if it can be counted, completes one record: the draft that was left,
with the events since, unless they closed the request. -/
theorem observe_fails_iff_overflows (capacity : Nat) (hc : 0 < capacity) (steps : List Step) (e : Event)
    (few : (((fresh capacity hc).run steps).draft e.requestId).seen < Draft.maxSeen) :
    let c := (fresh capacity hc).run steps
    let d := c.draft e.requestId
    let o := c.observe e
    (o.done = .error {} ↔ d.Overflows e) ∧
    (o.done = .error {} →
      o.next.cache = c.cache ∧ o.next.tally = c.tally ∧ o.next.warnedFull = c.warnedFull ∧
      o.notices = [] ∧
      (∀ id, o.next.inFlight.get? id = none ↔ c.inFlight.get? id = none) ∧
      (∀ id, id ≠ e.requestId → o.next.inFlight.get? id = c.inFlight.get? id) ∧
      c.inFlight.get? e.requestId = some d ∧
      o.next.inFlight.get? e.requestId = some (d.afterFailure e) ∧
      ∀ more f, f.requestId = e.requestId → f.stage = .ended →
        let later := o.next.run more
        let ending := later.observe f
        (later.draft f.requestId).seen < Draft.maxSeen →
        ending.done = .ok true ∧ ending.next.tally.total = later.tally.total + 1 ∧
        ending.next.cache.toList =
          (later.cache.toList ++ [((later.draft f.requestId).apply f).1.record]).rtake capacity ∧
        ending.next.inFlight.get? f.requestId = none ∧
        ((∀ s ∈ more, s.closes f.requestId = false) →
          later.draft f.requestId =
            (d.afterFailure e).applyAll (more.filterMap (Step.event? f.requestId)))) := by
  intro c d o
  have fails : o.done = .error {} ↔ d.Overflows e := by
    rw [show o.done = _ from done_observe c e]
    exact Draft.apply_eq_error_iff (fits_draft_run steps e.requestId) few
  refine ⟨fails, fun failed => ?_⟩
  have overflows := fails.mp failed
  have outcome : o = _ := observe_of_overflows overflows
  have left := get?_inFlight_observe_of_overflows overflows
  have own : o.next.inFlight.get? e.requestId = some (d.afterFailure e) := by
    rw [left, if_pos rfl]
  refine ⟨by rw [outcome], by rw [outcome], by rw [outcome], by rw [outcome],
    get?_inFlight_observe_eq_none_iff overflows, fun id other => by rw [left, if_neg other],
    get?_inFlight_of_overflows overflows, own, fun more f hf ended => ?_⟩
  intro later ending counted
  have reached : later = (fresh capacity hc).run (steps ++ .observe e :: more) := by
    rw [run, List.foldl_append]
    rfl
  have room : later.cache.capacity = capacity := by rw [reached, capacity_cache_run]
  have completes := Draft.completes_iff.mpr ⟨ended, counted⟩
  obtain ⟨done, total, cache, gone⟩ := observe_end (c := later) completes
  refine ⟨done, total, room ▸ cache, gone, fun stillOpen => ?_⟩
  rw [show later.draft f.requestId = _ from draft_run_of_open stillOpen, hf, draft, own,
    Option.getD_some]

/-- An event of the request whose bytes are to overflow, or of another one. -/
def wired (stage : Stage) (requestId endpoint : String) (payload : Payload) : Event :=
  { stage, transport := .https, requestId, endpoint, timestamp := .epoch, payload }

/-- A payload as large as a count can be, and another request beside it. -/
def brimming : List Step :=
  [.observe (wired .inPayload "a" "" (.bytes 0xFFFFFFFFFFFFFFFF)), .observe (wired .begun "b" "" .none)]

/-- The header that comes late names the endpoint before it fails, and the record that the request
ends with has the name. -/
theorem observe_fails_iff_overflows_brimming :
    let c := (fresh 1 Nat.one_pos).run brimming
    let o := c.observe (wired .headerReceived "a" "/late" (.bytes 1))
    let later := o.next.run [.observe (wired .ended "b" "" .none), .observe (wired .begun "a" "" .none)]
    let ending := later.observe (wired .ended "a" "" (.error "cut"))
    0 < 1 ∧ (c.draft "a").seen < Draft.maxSeen ∧ (later.draft "a").seen < Draft.maxSeen ∧
    o.done = .error {} ∧ o.next.tally = c.tally ∧ o.next.cache = c.cache ∧
    o.next.inFlight.get? "b" = c.inFlight.get? "b" ∧
    o.next.inFlight.get? "a" = some {
      record := {
        endpoint := "/late", transport := some .https, inCapture := some .epoch, inBytes := maxCount }
      seen := 1 } ∧
    ending.done = .ok true ∧ ending.next.tally.total = later.tally.total + 1 ∧
    ending.next.cache.toList = [{
      endpoint := "/late", transport := some .https, error := some "cut", begun := some .epoch,
      ended := some .epoch, inCapture := some .epoch, inBytes := maxCount }] := by
  dsimp only
  have few : (((fresh 1 Nat.one_pos).run brimming).draft "a").seen < Draft.maxSeen := by decide
  obtain ⟨fails, after⟩ := observe_fails_iff_overflows 1 Nat.one_pos brimming
    (wired .headerReceived "a" "/late" (.bytes 1)) few
  have failed := fails.mpr ⟨1, rfl, .inl ⟨by decide, by decide⟩⟩
  obtain ⟨cache, tally, -, -, -, others, -, left, next⟩ := after failed
  have enough : ((Collector.run (Collector.observe ((fresh 1 Nat.one_pos).run brimming)
      (wired .headerReceived "a" "/late" (.bytes 1))).next
      [.observe (wired .ended "b" "" .none), .observe (wired .begun "a" "" .none)]).draft "a").seen <
        Draft.maxSeen := by decide
  obtain ⟨done, total, kept, -, -⟩ := next
    [.observe (wired .ended "b" "" .none), .observe (wired .begun "a" "" .none)]
    (wired .ended "a" "" (.error "cut")) rfl rfl enough
  refine ⟨Nat.one_pos, few, enough, failed, tally, cache, others "b" (by decide),
    left.trans (by decide), done, total, ?_⟩
  rw [kept]
  decide

end RequestMeter.Collector
