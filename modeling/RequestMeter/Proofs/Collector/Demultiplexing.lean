import RequestMeter.Proofs.Collector.Run

/-! # Demultiplexing

Whatever the order of a run, each request is gathered from its own segment and from nothing else: what
is in flight are the folds of the segments that are open, and the cache keeps the newest folds of the
segments that ended.  While every end can be counted, the segment of an id is all that was observed of
it since its last end.
-/
namespace RequestMeter.Collector

variable {capacity : Nat} {hc : 0 < capacity}

/-! ## What is in flight -/

theorem openDraft?_concat (id : String) (before : List Step) (s : Step) :
    openDraft? id (before ++ [s]) = s.advance id (openDraft? id before) := by
  cases s with
  | discard => simp [openDraft?, segment_concat, Step.gather, Step.advance]
  | observe e =>
    by_cases h : e.requestId = id ∧ e.stage ≠ .unknown
    · simp only [Step.advance, Step.event?, if_pos h, getD_openDraft?]
      cases he : (Draft.applyAll {} (segment id before)).completes e <;>
        simp [openDraft?, segment_concat, Step.gather, h, he, Draft.applyAll_append]
    · simp [openDraft?, segment_concat, Step.gather, Step.advance, Step.event?, h]

theorem get?_inFlight_run (id : String) (steps : List Step) :
    ((fresh capacity hc).run steps).inFlight.get? id = openDraft? id steps := by
  -- The induction is on the last step, so that segments grow at their end.
  induction steps using List.reverseRecOn with
  | nil => rfl
  | append_singleton before s ih =>
    rw [run_concat, get?_inFlight_step, openDraft?_concat, ih]

theorem draft_run (id : String) (steps : List Step) :
    ((fresh capacity hc).run steps).draft id = Draft.applyAll {} (segment id steps) := by
  rw [draft, get?_inFlight_run, getD_openDraft?]

theorem encard_open (steps : List Step) :
    {id | segment id steps ≠ []}.encard = ((fresh capacity hc).run steps).inFlight.size := by
  rw [← Table.encard_keys]
  congr 1
  ext id
  rw [Set.mem_ofPred_eq, Set.mem_ofPred_eq, get?_inFlight_run, ne_eq, ne_eq, openDraft?_eq_none_iff]

/-! ## What is cached -/

theorem retired?_run (before : List Step) (s : Step) :
    ((fresh capacity hc).run before).retired? s = completion? before s := by
  cases s with
  | discard => rfl
  | observe e => simp [retired?, completion?, draft_run, Draft.applyAll_append]

/-- Only the end of a request stores a record in the cache. -/
theorem cache_step (c : Collector) (s : Step) :
    (c.step s).cache = match c.retired? s with
      | some r => (c.cache.store r).1
      | none => c.cache := by
  cases h : c.retired? s with
  | none =>
    obtain ⟨⟨t, ht⟩, -⟩ := step_of_retired?_eq_none h
    rw [ht]
  | some r =>
    obtain ⟨t, ht⟩ := step_of_retired?_eq_some h
    rw [show c.step s = _ from congrArg Prod.fst ht, cache_retire]

theorem capacity_cache_run (steps : List Step) :
    ((fresh capacity hc).run steps).cache.capacity = capacity := by
  induction steps using List.reverseRecOn with
  | nil => rfl
  | append_singleton before s ih =>
    rw [run_concat, cache_step]
    split
    · rw [Ring.capacity_store, ih]
    · exact ih

theorem toList_cache_run (steps : List Step) :
    ((fresh capacity hc).run steps).cache.toList = (completed steps).rtake capacity := by
  induction steps using List.reverseRecOn with
  | nil => simp [fresh]
  | append_singleton before s ih =>
    rw [run_concat, cache_step, retired?_run, completed_concat]
    cases completion? before s with
    | none => simpa using ih
    | some r =>
      simp only [Option.toList_some]
      rw [Ring.toList_store, capacity_cache_run, ih, Ring.rtake_rtake_append]

/-! ## Runs in which every end is counted -/

/-- The events of an id since its last end or the last discard, unknown ones left out. -/
def sinceClosed (id : String) (steps : List Step) : List Event :=
  (steps.rtakeWhile fun s => !s.closes id).filterMap (Step.event? id)

theorem sinceClosed_concat (id : String) (before : List Step) (s : Step) :
    sinceClosed id (before ++ [s]) =
      if s.closes id then [] else sinceClosed id before ++ (s.event? id).toList := by
  by_cases h : s.closes id = true
  · rw [sinceClosed, List.rtakeWhile_concat_neg _ _ _ (by simp [h]), List.filterMap_nil, if_pos h]
  · rw [sinceClosed, List.rtakeWhile_concat_pos _ _ _ (by simp [h]), List.filterMap_append, if_neg h,
      sinceClosed]
    cases hs : s.event? id <;> simp [hs]

/-- Before each end of a run there are fewer events of its request than can be counted. -/
def EndsCounted (steps : List Step) : Prop :=
  ∀ before e, before ++ [.observe e] <+: steps → e.stage = .ended →
    (sinceClosed e.requestId before).length < Draft.maxSeen

theorem EndsCounted.of_prefix {before steps : List Step} (h : EndsCounted steps)
    (hp : before <+: steps) : EndsCounted before :=
  fun earlier e he => h earlier e (he.trans hp)

/-- No end of a run that is short enough comes too late to be counted. -/
theorem endsCounted_of_length_le {steps : List Step} (h : steps.length ≤ Draft.maxSeen) :
    EndsCounted steps := by
  rintro before e ⟨rest, rfl⟩ -
  have gathered : (sinceClosed e.requestId before).length ≤ before.length :=
    (List.length_filterMap_le _ _).trans (List.rtakeWhile_suffix _ _).length_le
  rw [List.length_append, List.length_append, List.length_singleton] at h
  omega

/-- An end of such a run finds a number left. -/
theorem completes_sinceClosed {before : List Step} {e : Event}
    (h : EndsCounted (before ++ [.observe e])) (he : e.stage = .ended) :
    (Draft.applyAll {} (sinceClosed e.requestId before)).completes e = true := by
  have few := h before e (List.prefix_refl _) he
  have seen := Draft.seen_applyAll_le_add {} (sinceClosed e.requestId before)
  exact Draft.completes_iff.mpr ⟨he, lt_of_le_of_lt seen (by simpa using few)⟩

theorem segment_eq_sinceClosed {steps : List Step} (h : EndsCounted steps) (id : String) :
    segment id steps = sinceClosed id steps := by
  induction steps using List.reverseRecOn with
  | nil => rfl
  | append_singleton before s ih =>
    rw [segment_concat, sinceClosed_concat, ih (h.of_prefix (List.prefix_append _ _))]
    cases s with
    | discard => rfl
    | observe e =>
      by_cases known : e.requestId = id ∧ e.stage ≠ .unknown
      · obtain ⟨rfl, hu⟩ := known
        by_cases he : e.stage = .ended
        · have counted := completes_sinceClosed h he
          simp [Step.gather, Step.closes, he, counted]
        · simp [Step.gather, Step.closes, Step.event?, Draft.completes, hu, he]
      · have other : ¬ (e.requestId = id ∧ e.stage = .ended) := by
          rintro ⟨same, he⟩
          exact known ⟨same, by simp [he]⟩
        simp [Step.gather, Step.closes, Step.event?, known, other]

/-! ## Runs without overflow -/

/-- Every event of a run fits into what was observed of its request since the last end, or the last
discard: the inbound and the outbound bytes add up to 64-bit counts, and the events to a 32-bit one.
-/
def InBounds (steps : List Step) : Prop :=
  ∀ before e, before ++ [.observe e] <+: steps →
    Draft.Fits {} (sinceClosed e.requestId before ++ [e])

theorem InBounds.of_prefix {before steps : List Step} (h : InBounds steps) (hp : before <+: steps) :
    InBounds before :=
  fun earlier e he => h earlier e (he.trans hp)

theorem inBounds_concat {before : List Step} {e : Event} :
    InBounds (before ++ [.observe e]) ↔
      InBounds before ∧ Draft.Fits {} (sinceClosed e.requestId before ++ [e]) := by
  constructor
  · intro h
    exact ⟨h.of_prefix (List.prefix_append _ _), h before e (List.prefix_refl _)⟩
  · rintro ⟨h, last⟩ earlier f hp
    rcases List.prefix_concat_iff.1 hp with same | hp
    · obtain ⟨rfl, same⟩ := List.append_inj' same rfl
      obtain rfl : f = e := by simpa using same
      exact last
    · exact h earlier f hp

theorem InBounds.fits_sinceClosed {steps : List Step} (h : InBounds steps) (id : String) :
    Draft.Fits {} (sinceClosed id steps) := by
  induction steps using List.reverseRecOn with
  | nil => exact Draft.Fits.empty
  | append_singleton before s ih =>
    have earlier := ih (h.of_prefix (List.prefix_append _ _))
    rw [sinceClosed_concat]
    split
    · exact Draft.Fits.empty
    · cases s with
      | discard => simpa [Step.event?] using earlier
      | observe e =>
        by_cases known : e.requestId = id ∧ e.stage ≠ .unknown
        · obtain ⟨rfl, hu⟩ := known
          simpa [Step.event?, hu] using (inBounds_concat.1 h).2
        · simpa [Step.event?, known] using earlier

def Step.weight (w : Event → Nat) : Step → Nat
  | .observe e => w e
  | .discard => 0

theorem sum_sinceClosed_le (w : Event → Nat) (id : String) (steps : List Step) :
    ((sinceClosed id steps).map w).sum ≤ (steps.map (Step.weight w)).sum := by
  induction steps using List.reverseRecOn with
  | nil => simp [sinceClosed]
  | append_singleton before s ih =>
    have hs : ((s.event? id).toList.map w).sum ≤ s.weight w := by
      cases s with
      | discard => simp [Step.event?]
      | observe e =>
        by_cases h : e.requestId = id ∧ e.stage ≠ .unknown <;> simp [Step.event?, Step.weight, h]
    rw [sinceClosed_concat, List.map_append, List.sum_append, List.map_singleton, List.sum_singleton]
    split
    · simp
    · rw [List.map_append, List.sum_append]
      omega

/-- A run is in bounds when the sums over all its events, whatever their ids, are. -/
theorem inBounds_of_sum_le {steps : List Step}
    (hin : (steps.map (Step.weight Event.inboundBytes)).sum ≤ maxCount)
    (hout : (steps.map (Step.weight Event.outboundBytes)).sum ≤ maxCount)
    (hseen : (steps.map (Step.weight Event.counted)).sum ≤ Draft.maxSeen) : InBounds steps := by
  rintro before e ⟨rest, rfl⟩
  have within (w : Event → Nat) : ((sinceClosed e.requestId before ++ [e]).map w).sum ≤
      ((before ++ [Step.observe e] ++ rest).map (Step.weight w)).sum := by
    have gathered := sum_sinceClosed_le w e.requestId before
    simp only [List.map_append, List.sum_append, List.map_singleton, List.sum_singleton,
      Step.weight] at gathered ⊢
    omega
  refine ⟨?_, ?_, ?_⟩
  · simpa using (within _).trans hin
  · simpa using (within _).trans hout
  · simpa using (within _).trans hseen

theorem counted_sinceClosed (id : String) (steps : List Step) :
    ((sinceClosed id steps).map Event.counted).sum = (sinceClosed id steps).length := by
  have one : (sinceClosed id steps).map Event.counted = (sinceClosed id steps).map fun _ => 1 := by
    refine List.map_congr_left fun e he => ?_
    obtain ⟨s, -, hs⟩ := List.mem_filterMap.mp he
    cases s with
    | discard => cases hs
    | observe f =>
      rw [Step.event?, Option.ite_none_right_eq_some, Option.some.injEq] at hs
      obtain ⟨⟨-, hu⟩, rfl⟩ := hs
      exact if_neg hu
  simp [one]

theorem InBounds.endsCounted {steps : List Step} (h : InBounds steps) : EndsCounted steps := by
  intro before e hp he
  have fits := (h before e hp).seen
  rw [List.map_append, List.sum_append, counted_sinceClosed] at fits
  simp [Event.counted, he] at fits
  exact fits

/-- A run in bounds has no step that fails, and exactly the ends complete a request. -/
theorem done_observe_run {before : List Step} {e : Event} (h : InBounds (before ++ [.observe e])) :
    (((fresh capacity hc).run before).observe e).done = .ok (decide (e.stage = .ended)) := by
  have counted := (h.of_prefix (List.prefix_append _ _)).endsCounted
  have last := (h before e (List.prefix_refl _)).apply_last
  rw [done_observe, draft_run, segment_eq_sinceClosed counted, last]

/-- The end of a request in bounds completes the fold of all its events, the end included. -/
theorem completion?_of_inBounds {before : List Step} {e : Event}
    (h : InBounds (before ++ [.observe e])) :
    completion? before (.observe e) =
      if e.stage = .ended then
        some (Draft.applyAll {} (sinceClosed e.requestId before ++ [e])).record
      else none := by
  have done := @done_observe_run 1 Nat.one_pos _ _ h
  rw [done_observe, draft_run] at done
  rw [completion?, ← segment_eq_sinceClosed (h.of_prefix (List.prefix_append _ _)).endsCounted]
  refine if_congr ?_ rfl rfl
  rw [← Draft.apply_eq_ok_true_iff, done, Except.ok.injEq, decide_eq_true_iff]

/-- After any run in bounds, on a cache of any capacity: an id is in flight exactly when something was
observed of it since its last end or the last discard, with the fold of that; every event completed a
request exactly when it was an end, and what it completed is the fold of all since the end before; the
cache holds the newest completed records; and a discard counts the open ids and leaves cache and tally
alone. -/
theorem run_demultiplexes (capacity : Nat) (hc : 0 < capacity) (steps : List Step)
    (bounds : InBounds steps) :
    let c := (fresh capacity hc).run steps
    (∀ id, c.inFlight.get? id =
      if sinceClosed id steps = [] then none
      else some (Draft.applyAll {} (sinceClosed id steps))) ∧
    (∀ before e, before ++ [.observe e] <+: steps →
      (((fresh capacity hc).run before).observe e).done = .ok (decide (e.stage = .ended)) ∧
      completion? before (.observe e) =
        if e.stage = .ended then
          some (Draft.applyAll {} (sinceClosed e.requestId before ++ [e])).record
        else none) ∧
    c.cache.toList = (completed steps).rtake capacity ∧
    {id | sinceClosed id steps ≠ []}.encard = c.discard.2 ∧
    c.discard.1.cache = c.cache ∧ c.discard.1.tally = c.tally := by
  have same := segment_eq_sinceClosed bounds.endsCounted
  refine ⟨fun id => ?_, fun before e hp => ?_, toList_cache_run steps, ?_, rfl, rfl⟩
  · rw [get?_inFlight_run, openDraft?, same]
  · exact ⟨done_observe_run (bounds.of_prefix hp), completion?_of_inBounds (bounds.of_prefix hp)⟩
  · simp only [← same]
    exact encard_open steps

/-- Two requests interleave, the id of the first is used again, and an unknown event and a discard
come in between. -/
def interleaved : List Step :=
  let event (stage : Stage) (id : String) (payload : Payload) : Step :=
    .observe { stage, transport := .http, requestId := id, timestamp := .epoch, payload }
  [event .begun "a" .none, event .inPayload "b" (.bytes 7), event .ended "b" .none,
    event .unknown "c" (.bytes 5), event .ended "a" .none, event .begun "a" .none, .discard,
    event .outPayload "a" (.bytes 9)]

/-- On a cache for one record only the later of the two completed records is left, and the second use
of the first id has no begin. -/
theorem run_demultiplexes_interleaved :
    0 < 1 ∧ InBounds interleaved ∧
    let c := (fresh 1 Nat.one_pos).run interleaved
    let next : Event :=
      { stage := .ended, transport := .http, requestId := "a", timestamp := .epoch }
    c.inFlight.get? "a" = some {
      record := { firstByte := some .epoch, outCapture := some .epoch, outBytes := 9 }
      seen := 1 } ∧
    c.inFlight.get? "b" = none ∧
    (((fresh 1 Nat.one_pos).run (interleaved.take 4)).observe next).done = .ok true ∧
    c.cache.toList =
      [{ transport := some .http, begun := some .epoch, ended := some .epoch }] := by
  have bounds : InBounds interleaved :=
    inBounds_of_sum_le (by decide) (by decide) (by decide)
  obtain ⟨inFlight, done, cache, -⟩ := run_demultiplexes 1 Nat.one_pos interleaved bounds
  exact ⟨Nat.one_pos, bounds, (inFlight "a").trans (by decide), (inFlight "b").trans (by decide),
    (done (interleaved.take 4) _ ⟨interleaved.drop 5, rfl⟩).1, cache.trans (by decide)⟩

/-! ## A request with too many events -/

def announced (stage : Stage) : Event :=
  { stage, transport := .http, requestId := "a", timestamp := .epoch }

/-- A request begins as often as can be counted. -/
def countless : List Step := List.replicate Draft.maxSeen (.observe (announced .begun))

theorem seen_countless : (Draft.applyAll {} (segment "a" countless)).seen = Draft.maxSeen := by
  have gathered (n : Nat) : segment "a" (List.replicate n (.observe (announced .begun))) =
      List.replicate n (announced .begun) := by
    induction n with
    | zero => rfl
    | succ n ih =>
      rw [List.replicate_succ', List.replicate_succ', segment_concat, ih]
      simp [Step.gather, announced, Draft.completes]
  rw [countless, gathered, Draft.seen_applyAll_replicate rfl (Nat.le_refl _)]

theorem completes_countless :
    (Draft.applyAll {} (segment "a" countless)).completes (announced .ended) = false := by
  rw [Draft.completes, seen_countless, decide_eq_false (Nat.lt_irrefl _), Bool.and_false]

theorem completed_countless : completed (countless ++ [.observe (announced .ended)]) = [] := by
  have begins (n : Nat) : completed (List.replicate n (.observe (announced .begun))) = [] := by
    induction n with
    | zero => rfl
    | succ n ih =>
      rw [List.replicate_succ', completed_concat, ih]
      simp [completion?, announced, Draft.completes]
  have last : completion? countless (.observe (announced .ended)) = none := by
    rw [completion?, show (announced .ended).requestId = "a" from rfl, completes_countless]
    exact if_neg Bool.false_ne_true
  rw [completed_concat, last, countless, begins, Option.toList_none, List.append_nil]

/-- Its end carries no bytes, and yet it fails: the request stays in flight, and nothing is
completed. -/
theorem run_not_demultiplexed_countless :
    (∀ s ∈ countless ++ [.observe (announced .ended)],
      s.weight Event.inboundBytes = 0 ∧ s.weight Event.outboundBytes = 0) ∧
    let c := (fresh 1 Nat.one_pos).run countless
    (announced .ended).stage = .ended ∧ (c.observe (announced .ended)).done = .error {} ∧
    sinceClosed "a" (countless ++ [.observe (announced .ended)]) = [] ∧
    (c.observe (announced .ended)).next.inFlight.get? "a" ≠ none ∧
    (c.observe (announced .ended)).next.cache.toList = [] := by
  have next (c : Collector) : ((c.run countless).observe (announced .ended)).next =
      c.run (countless ++ [.observe (announced .ended)]) := by
    rw [run_concat, step]
  refine ⟨fun s hs => ?_, rfl, ?_, ?_, ?_, ?_⟩
  · rw [List.mem_append, countless, List.mem_replicate, List.mem_singleton] at hs
    rcases hs with ⟨-, rfl⟩ | rfl <;> exact ⟨rfl, rfl⟩
  · rw [done_observe, draft_run]
    exact (Draft.apply_of_seen_eq seen_countless (.inr rfl)).1
  · exact (sinceClosed_concat _ _ _).trans (if_pos rfl)
  · rw [next, get?_inFlight_run, ne_eq, openDraft?_eq_none_iff, segment_concat,
      Step.gather, completes_countless]
    simp [announced]
  · rw [next, toList_cache_run, completed_countless]
    rfl

end RequestMeter.Collector
